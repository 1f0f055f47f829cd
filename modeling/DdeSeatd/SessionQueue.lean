import DdeSeatd.Activation
import DdeSeatd.Lifecycle

set_option autoImplicit false

/-! # The queued session

On a seat without VTs a switch is a handover: `seat_set_next_session` queues the client that is
to be opened and asks the active one to give up the seat; whatever makes it do so, an ack, a close
or a crash, `seat_activate` then opens the queued client. In between other clients may join, ask
for other switches, or leave.

While a client is queued, the active one is PENDING_DISABLE (`View.Waits`), and only three things
can end that: the active client gives up the seat or leaves it, and the queued client is opened at
once; or the queued client leaves, and is forgotten (`Turn`). So nobody is opened before the queued
client, unless it has left (`queued_client_opens_first`).
-/

namespace DdeSeatd

open ClientState Labelled

/-! ## Who was opened -/

/-- The clients that were sent ENABLE_SEAT, with which `seat_open_client` succeeds; newest first. -/
def openedClients (trace : List Event) : List ClientId :=
  trace.filterMap fun e =>
    match e with
    | .frame c .enableSeat true => some c
    | _ => none

theorem openedClients_append (es es' : List Event) :
    openedClients (es ++ es') = openedClients es ++ openedClients es' := List.filterMap_append

theorem mem_openedClients {c : ClientId} {trace : List Event} :
    c ∈ openedClients trace ↔ .frame c .enableSeat true ∈ trace := by
  unfold openedClients
  rw [List.mem_filterMap]
  constructor
  · rintro ⟨e, he, heq⟩
    split at heq
    · cases heq
      exact he
    · cases heq
  · exact fun h => ⟨_, h, rfl⟩

/-- The machine's log tells it as well. -/
theorem openedClients_view (s : Server) (x : Option ClientId) :
    openedClients (s.view x).log = openedClients s.trace := by
  show openedClients (s.trace.filter Event.notable) = _
  unfold openedClients
  rw [List.filterMap_filter]
  congr 1
  funext e
  split_ifs with hnotable
  · rfl
  · split
    · exact absurd rfl hnotable
    · rfl

/-- Nobody was opened who was not told. -/
theorem openedClients_eq_nil {evs : List Event} (h : ∀ o, seatFrames o evs = []) :
    openedClients evs = [] := by
  rw [List.eq_nil_iff_forall_not_mem]
  intro c hc
  have hmem : ServerMsg.enableSeat ∈ seatFrames c evs := by
    unfold seatFrames
    rw [List.mem_filterMap]
    exact ⟨_, mem_openedClients.mp hc, by simp [ServerMsg.isSeatEvent]⟩
  rw [h c] at hmem
  cases hmem

/-! ## While a client is queued -/

/-- `b` is queued, and the seat is to be given up by `a`. -/
structure View.Waits (v : View) (a b : ClientId) : Prop where
  next : v.seat.nextClient = some b
  active : v.seat.activeClient = some a
  pending : (v.client a).state = pendingDisable

/-- Transitions that neither take the seat from its client nor `b` off the seat. -/
def Act.KeepsQueue (b : ClientId) : Act → Prop
  | .acked _ | .vacate _ => False
  | .detach c => c ≠ b
  | _ => True

section

variable {k : Kernel} {v v' : View} {a b : ClientId}

/-- **Nothing else ends the wait**, and nobody is opened during it. -/
theorem View.Waits.trans (h : v.Waits a b) (hwf : v.WF) {act : Act} (hact : act.KeepsQueue b)
    (ht : act.Trans k v v') : v'.Waits a b ∧ openedClients v'.log = openedClients v.log := by
  obtain ⟨evs, hg, hframe, -, rfl⟩ := ht
  obtain ⟨hnext, hactive, hpending⟩ := h
  have hquiet : (∀ o, seatFrames o evs = []) → (act.effect v).log = v.log →
      openedClients ((act.effect v).push evs).log = openedClients v.log := by
    intro hnone hlog
    show openedClients (evs ++ (act.effect v).log) = _
    rw [openedClients_append, openedClients_eq_nil hnone, hlog, List.nil_append]
  have hset : ∀ {c : ClientId} {cl : ClientView}, cl.state = (v.client c).state →
      (((v.set c cl).client a).state = pendingDisable) := by
    intro c cl hcl
    rw [View.client_set]
    split_ifs with heq
    · rw [hcl, ← heq, hpending]
    · exact hpending
  cases act with
  | acked c => cases hact
  | vacate c => cases hact
  | opened c | openFailed c ds => exact absurd (hactive.symm.trans hg.2.2.1) (Option.some_ne_none a)
  | disabled c ds next =>
      -- the active client is no longer ACTIVE
      have hca : c = a := Option.some.inj (hg.1.symm.trans hactive)
      have hst : (v.client c).state = ClientState.active := hg.2.1
      rw [hca, hpending] at hst
      cases hst
  | create =>
      have hlive : a < v.nextId := hwf.fresh a
        ((hwf.live_iff a).mpr (Or.inr (hwf.active a hactive).1))
      refine ⟨⟨hnext, hactive, ?_⟩, hquiet hframe rfl⟩
      simpa [Act.effect, View.push, Function.update_apply, Nat.ne_of_lt hlive] using hpending
  | detach c =>
      refine ⟨⟨?_, hactive, hpending⟩, hquiet hframe rfl⟩
      show (if v.seat.nextClient = some c then none else v.seat.nextClient) = some b
      rw [if_neg (by rw [hnext]; exact fun heq => hact (Option.some.inj heq).symm), hnext]
  | retire c =>
      have hne : a ≠ c := fun heq => hg.2.1 (heq ▸ hactive)
      refine ⟨⟨hnext, hactive, ?_⟩, hquiet hframe rfl⟩
      show ((v.set c _).client a).state = _
      rw [View.client_set, if_neg hne, hpending]
  | join c n | dropDrm c ds | restoreDrm c st | openDevice c d | adjust c ds | closeDevice c i =>
      exact ⟨⟨hnext, hactive, hset rfl⟩, hquiet hframe rfl⟩
  | _ => exact ⟨⟨hnext, hactive, hpending⟩, hquiet hframe rfl⟩

theorem View.Waits.path (h : v.Waits a b) (hwf : v.WF) {P : Act → Prop}
    (hP : ∀ act, P act → act.KeepsQueue b) (hp : Act.Path k P v v') :
    v'.Waits a b ∧ openedClients v'.log = openedClients v.log := by
  have hinv := Path.invariant (I := fun u : View => u.WF ∧ u.Waits a b
    ∧ openedClients u.log = openedClients v.log) (fun act u u' hact ht hu => ?_) hp ⟨hwf, h, rfl⟩
  · exact hinv.2
  · obtain ⟨hwaits, hopened⟩ := hu.2.1.trans hu.1 (hP act hact) ht
    exact ⟨hu.1.trans ht, hwaits, hopened.trans hu.2.2⟩

end

/-! ## How the wait ends -/

/-- What may become of the queued client `b`: it still waits; it was opened before anybody else; or
it has left the seat before anybody was opened. -/
inductive Turn (a b : ClientId) (v v' : View) : Prop where
  | waits (h : v'.Waits a b) (hopened : openedClients v'.log = openedClients v.log)
  | opened (later : List ClientId)
      (hopened : openedClients v'.log = later ++ b :: openedClients v.log)
  | left (h : v'.Gone b) (hnext : v'.seat.nextClient = none)
      (hopened : openedClients v'.log = openedClients v.log)

/-- It does not matter in which list clients off the seat are. -/
theorem Turn.congr {a b : ClientId} {v v' v'' : View} (h : Turn a b v v')
    (hseat : v''.seat = v'.seat) (hclient : v''.client = v'.client) (hlog : v''.log = v'.log)
    (hnextId : v''.nextId = v'.nextId) (hleaving : v''.leaving = v'.leaving) : Turn a b v v'' := by
  cases h with
  | waits h hopened =>
      exact .waits ⟨hseat ▸ h.next, hseat ▸ h.active, hclient ▸ h.pending⟩ (hlog ▸ hopened)
  | opened later hopened => exact .opened later (hlog ▸ hopened)
  | left h hnext hopened =>
      refine .left ?_ (hseat ▸ hnext) (hlog ▸ hopened)
      unfold View.Gone
      rw [hseat, hclient, hnextId, hleaving]
      exact h

/-- As long as the client waits, it does not matter since when. -/
theorem Turn.after {a b : ClientId} {u v v' : View} (h : Turn a b v v')
    (hu : openedClients v.log = openedClients u.log) : Turn a b u v' := by
  cases h with
  | waits h hopened => exact .waits h (hopened.trans hu)
  | opened later hopened => exact .opened later (hu ▸ hopened)
  | left h hnext hopened => exact .left h hnext (hopened.trans hu)

/-- Once the client has been opened, nothing changes that. -/
theorem Turn.of_opened {k : Kernel} {P : Act → Prop} {a b : ClientId} {v v' v'' : View}
    {later : List ClientId} (hopened : openedClients v'.log = later ++ b :: openedClients v.log)
    (hp : Act.Path k P v' v'') : Turn a b v v'' := by
  obtain ⟨evs, hevs⟩ := log_suffix_of_path hp
  refine .opened (openedClients evs ++ later) ?_
  rw [← hevs, openedClients_append, hopened, List.append_assoc]

section

variable (k : Kernel) (s : Server) {a b : ClientId} {c : ClientId}

/-- The queued client can be opened once the active one is out of its way. -/
theorem openable_of_waits {v : View} (hwf : v.WF) (h : v.Waits a b) :
    (v.client b).state = new ∨ (v.client b).state = disabled :=
  hwf.openable_of_ne (hwf.next b h.next).1 (hwf.next b h.next).2.1

/-- **`seat_activate` opens the queued client.** -/
theorem opens_queued (hactive : s.seat.activeClient = none) (hnext : s.seat.nextClient = some b)
    (hb : s.seat.vtBound = false)
    (hst : (s.clients b).state = new ∨ (s.clients b).state = disabled)
    (hsends : SendsSucceed ((seatActivate k s).2.view none).log) :
    openedClients ((seatActivate k s).2.view none).log = b :: openedClients (s.view none).log := by
  have htarget : seatActivateTarget s = some b := by
    unfold seatActivateTarget
    rw [hnext]
  have hopens := seatActivate_succeeds k s hactive htarget hst hsends fun hb' => by
    rw [hb] at hb'
    cases hb'
  rw [hopens.log none]
  rfl

theorem turn_seatAckDisableClient (hwf : (s.view none).WF) (hb : s.seat.vtBound = false)
    (h : (s.view none).Waits a b) (hc : c ∈ s.seat.clients)
    (hsends : SendsSucceed ((seatAckDisableClient k s c).2.view none).log) :
    Turn a b (s.view none) ((seatAckDisableClient k s c).2.view none) := by
  unfold seatAckDisableClient at hsends ⊢
  by_cases hst : (s.clients c).state ≠ pendingDisable
  · rw [if_pos hst]
    exact .waits h rfl
  · rw [if_neg hst] at hsends ⊢
    have hactive : s.seat.activeClient = some c := hwf.only c hc (Or.inr (not_not.mp hst))
    have hcur : ¬ (s.setState c disabled).seat.activeClient ≠ some c := not_not.mpr hactive
    have hbc : b ≠ c := fun heq => (hwf.next b h.next).2.1 (heq ▸ hactive)
    dsimp only at hsends ⊢
    rw [if_neg hcur] at hsends ⊢
    have hopenable : (s.clients b).state = new ∨ (s.clients b).state = disabled :=
      openable_of_waits hwf h
    exact .opened [] (opens_queued k ((s.setState c disabled).setSeat
      { s.seat with activeClient := none }) rfl h.next hb
      (by simpa [Server.setSeat, Server.setState, Server.setClient, Function.update_apply, hbc]
        using hopenable) hsends)

theorem openedClients_of_strips {v v' : View}
    (hp : Act.Path k (Act.Strips c) v v') : openedClients v'.log = openedClients v.log := by
  refine Path.invariant (I := fun u : View => openedClients u.log = openedClients v.log) ?_ hp rfl
  rintro act u u' hact ⟨evs, -, hframe, -, rfl⟩ hu
  have hquiet : (∀ o, seatFrames o evs = []) ∧ (act.effect u).log = u.log := by
    cases act <;> first | exact ⟨hframe, rfl⟩ | cases hact
  show openedClients (evs ++ (act.effect u).log) = _
  rw [openedClients_append, openedClients_eq_nil hquiet.1, hquiet.2, hu, List.nil_append]

theorem turn_seatRemoveClient (hwf : (s.view none).WF) (hb : s.seat.vtBound = false)
    (h : (s.view none).Waits a b) (hc : c ∈ s.seat.clients)
    (hsends : SendsSucceed ((seatRemoveClient k s c).view none).log) :
    Turn a b (s.view none) ((seatRemoveClient k s c).view none) := by
  obtain ⟨hstrip, -, -, hactive⟩ := seatStripClient_path k s hc
  have hseat := seatStripClient_seat k s c
  set s1 := seatStripClient k s c with hs1
  have hwf1 : (s1.view (some c)).WF := hwf.path hstrip
  have hoff : c ∉ s1.seat.clients := (hwf1.leaving_off c rfl).2
  have hba : s.seat.activeClient ≠ some b := (hwf.next b h.next).2.1
  have hactive1 : s1.seat.activeClient = some a := hactive.trans h.active
  have hb1 : s1.seat.vtBound = false := (vtBound_of_path hstrip).trans hb
  have hstays : c ≠ b → (s1.view (some c)).Waits a b
      ∧ openedClients (s1.view (some c)).log = openedClients (s.view none).log := fun hcb =>
    h.path hwf (fun act hact => by cases act <;> first | trivial | exact hact ▸ hcb) hstrip
  by_cases hca : c = a
  · -- the seat is handed over
    have hcb : c ≠ b := fun heq => hba (heq ▸ hca ▸ h.active)
    obtain ⟨hwaits, hopened⟩ := hstays hcb
    obtain ⟨hview, -⟩ := seatRemoveClient_current k s (hca ▸ hactive1) rfl
    rw [hview] at hsends ⊢
    have hqueued := opens_queued k (s1.setSeat { s1.seat with activeClient := none }) rfl
      hwaits.next hb1 (openable_of_waits hwf1 hwaits) hsends
    exact .opened [] (hqueued.trans (congrArg (b :: ·) hopened))
  have hother : s1.seat.activeClient ≠ some c := by
    rw [hactive1]
    exact fun heq => hca (Option.some.inj heq).symm
  rw [seatRemoveClient_other k s hother]
  by_cases hcb : c = b
  · subst hcb
    have hopened := openedClients_of_strips k hstrip
    refine .left ⟨?_, hoff, Option.some_ne_none c |>.symm, ?_⟩ ?_ hopened
    · exact hwf1.fresh c ((hwf1.live_iff c).mpr (Or.inr (Or.inr rfl)))
    · rw [View.client_set, if_pos rfl]
      exact hwf1.leavingSession c rfl
    · show s1.seat.nextClient = none
      rw [hseat]
      exact if_pos h.next
  · obtain ⟨hwaits, hopened⟩ := hstays hcb
    refine .waits ⟨hwaits.next, hwaits.active, ?_⟩ hopened
    rw [View.client_set, if_neg (Ne.symm hca)]
    exact hwaits.pending

theorem turn_clientDestroy (hwf : (s.view none).WF) (hb : s.seat.vtBound = false)
    (h : (s.view none).Waits a b) (hlive : c ∈ s.live)
    (hsends : SendsSucceed ((clientDestroy k s c).view none).log) :
    Turn a b (s.view none) ((clientDestroy k s c).view none) := by
  unfold clientDestroy at hsends ⊢
  dsimp only at hsends ⊢
  rw [view_record_quiet _ none rfl, view_setConnection] at hsends ⊢
  by_cases hseat : (s.clients c).seat = true
  · rw [if_pos hseat] at hsends ⊢
    have hturn := turn_seatRemoveClient k s hwf hb h (mem_of_seat s hwf hlive hseat) hsends
    exact hturn.congr rfl rfl rfl rfl rfl
  · rw [if_neg hseat]
    exact .waits ⟨h.next, h.active, h.pending⟩ rfl

theorem turn_handleRequest (hwf : (s.view none).WF) (hb : s.seat.vtBound = false)
    (h : (s.view none).Waits a b) (hlive : c ∈ s.live) (r : Request)
    (hsends : SendsSucceed ((handleRequest k s c r).2.view none).log) :
    Turn a b (s.view none) ((handleRequest k s c r).2.view none) := by
  have hkeeps : (∀ act, r.Allows k s c act → act.KeepsQueue b) →
      Turn a b (s.view none) ((handleRequest k s c r).2.view none) := by
    intro hP
    obtain ⟨hwaits, hopened⟩ := h.path hwf hP (handleRequest_path k s hwf hlive r)
    exact .waits hwaits hopened
  cases r with
  | closeSeat =>
      have hsends' : SendsSucceed ((handleCloseSeat k s c).2.view none).log := hsends
      show Turn a b (s.view none) ((handleCloseSeat k s c).2.view none)
      unfold handleCloseSeat at hsends' ⊢
      by_cases hseat : (s.clients c).seat = false
      · rw [if_pos hseat]
        exact .waits h rfl
      · rw [if_neg hseat] at hsends' ⊢
        dsimp only at hsends' ⊢
        rw [view_clientPutMsg k _ none c rfl] at hsends' ⊢
        have hturn := turn_seatRemoveClient k s hwf hb h
          (mem_of_seat s hwf hlive (by simpa using hseat)) hsends'
        exact hturn.congr rfl rfl rfl rfl rfl
  | disableSeat =>
      have hsends' : SendsSucceed ((handleDisableSeat k s c).2.view none).log := hsends
      show Turn a b (s.view none) ((handleDisableSeat k s c).2.view none)
      cases hseat : (s.clients c).seat with
      | false =>
          unfold handleDisableSeat
          rw [if_pos hseat]
          exact .waits h rfl
      | true =>
          rw [view_handleDisableSeat k s hseat] at hsends' ⊢
          exact turn_seatAckDisableClient k s hwf hb h (mem_of_seat s hwf hlive hseat) hsends'
  | _ =>
      refine hkeeps fun act hact => ?_
      cases act with
      | acked o => cases hact.1
      | vacate o => cases hact.1
      | detach o => cases hact.1
      | _ => trivial

/-- A request takes nobody off the seat but its client. -/
theorem mem_of_handleRequest (hwf : (s.view none).WF) (hlive : c ∈ s.live) (r : Request)
    (hne : b ≠ c) (hmem : b ∈ s.seat.clients) :
    b ∈ ((handleRequest k s c r).2.view none).seat.clients := by
  refine Path.invariant (I := fun v : View => b ∈ v.seat.clients) ?_
    (handleRequest_path k s hwf hlive r) hmem
  rintro act u u' hact ⟨evs, -, -, -, rfl⟩ hu
  cases act with
  | detach o => exact (List.mem_erase_of_ne fun heq => hne (heq.trans hact.2)).mpr hu
  | join o n => exact List.mem_cons_of_mem o hu
  | _ => exact hu

theorem turn_clientHandleRequest (hwf : (s.view none).WF) (hb : s.seat.vtBound = false)
    (h : (s.view none).Waits a b) (hlive : c ∈ s.live) (r : Request)
    (hsends : SendsSucceed ((clientHandleRequest k s c r).view none).log) :
    Turn a b (s.view none) ((clientHandleRequest k s c r).view none) := by
  rcases clientHandleRequest_cases k s c r with ⟨-, hsame⟩ | ⟨s', hs', heq, -⟩
  · rw [hsame] at hsends ⊢
    exact turn_handleRequest k s hwf hb h hlive r hsends
  have hpath := handleRequest_path k s hwf hlive r
  have hmem := mem_of_handleRequest k s (b := b) hwf hlive r
  have hlive' := live_of_handleRequest k s hwf hlive r hs'
  rw [← hs'] at hpath hmem
  have hwf' := hwf.path hpath
  have hb' : s'.seat.vtBound = false := (vtBound_of_path hpath).trans hb
  have hdestroy := clientDestroy_path k s' hwf' hlive'
  rw [heq] at hsends ⊢
  have hbefore : SendsSucceed (s'.view none).log := hsends.mono (log_suffix_of_path hdestroy).subset
  have hturn := turn_handleRequest k s hwf hb h hlive r (hs' ▸ hbefore)
  rw [← hs'] at hturn
  cases hturn with
  | waits hwaits hopened =>
      exact (turn_clientDestroy k s' hwf' hb' hwaits hlive' hsends).after hopened
  | opened later hopened => exact .of_opened hopened hdestroy
  | left hgone hnext hopened =>
      -- it was the client of the request that left, so it has no seat to give up
      have hbc : b = c := by
        by_contra hne
        exact hgone.2.1 (hmem hne (hwf.next b h.next).1)
      have hseat : (s'.clients c).seat ≠ true := fun hseat =>
        hgone.2.1 (hbc ▸ mem_of_seat s' hwf' hlive' hseat)
      unfold clientDestroy
      dsimp only
      rw [view_record_quiet _ none rfl, view_setConnection, if_neg hseat]
      exact Turn.congr (.left hgone hnext hopened) rfl rfl rfl rfl rfl

theorem turn_clientHandleWritable (hwf : (s.view none).WF) (hb : s.seat.vtBound = false)
    (h : (s.view none).Waits a b) (hlive : c ∈ s.live)
    (hsends : SendsSucceed ((clientHandleWritable k s c).view none).log) :
    Turn a b (s.view none) ((clientHandleWritable k s c).view none) := by
  rcases clientHandleWritable_cases k s c with hsame | ⟨s', hs', heq, -⟩
  · rw [hsame]
    exact .waits h rfl
  · have hlive' : c ∈ s'.live := by
      rw [show s'.live = s.live from congrArg View.live hs']
      exact hlive
    have hb' : s'.seat.vtBound = false := (congrArg (·.seat.vtBound) hs').trans hb
    rw [heq] at hsends ⊢
    rw [← hs'] at hwf h ⊢
    exact turn_clientDestroy k s' hwf hb' h hlive' hsends

/-- **A step while `b` is queued.** -/
theorem turn_step (hwf : (s.view none).WF) (hb : s.seat.vtBound = false)
    (h : (s.view none).Waits a b) (st : Step)
    (hsends : SendsSucceed ((step k s st).view none).log) :
    Turn a b (s.view none) ((step k s st).view none) := by
  cases hclient : st.client with
  | none =>
      have hkeeps : ∀ act, st.Allows k s act → act.KeepsQueue b := by
        intro act hact
        have hstays := (hact.staysPut k s hclient fun _ => True).1
        cases act with
        | acked o => exact hstays
        | vacate o => exact hstays
        | detach o =>
            cases st <;> cases hclient
            all_goals simp [Step.Allows, ControlRequest.Allows, Act.Frees, Act.Opens] at hact
        | _ => trivial
      obtain ⟨hwaits, hopened⟩ := h.path hwf hkeeps (step_path k s hwf st)
      exact .waits hwaits hopened
  | some c =>
      unfold step at hsends ⊢
      split_ifs at hsends ⊢ with hgone
      · exact .waits h rfl
      have hlive := (here_of_made hgone).1 c hclient
      cases st with
      | request o r =>
          cases hclient
          exact turn_clientHandleRequest k s hwf hb h hlive r hsends
      | writable o =>
          cases hclient
          exact turn_clientHandleWritable k s hwf hb h hlive hsends
      | disconnect o =>
          cases hclient
          exact turn_clientDestroy k s hwf hb h hlive hsends
      | _ => cases hclient

end

/-! ## Runs -/

/-- While a client is queued, the active one is PENDING_DISABLE. -/
def View.NextPending (v : View) : Prop := ∀ b, v.seat.nextClient = some b → ∃ a, v.Waits a b

theorem View.NextPending.trans {k : Kernel} {v v' : View} (h : v.NextPending) (hwf : v.WF)
    {act : Act} (ht : act.Trans k v v') : v'.NextPending := by
  intro b hb
  have hkept : act.KeepsQueue b → v.seat.nextClient = some b → ∃ a, v'.Waits a b := by
    intro hkeeps hnext
    obtain ⟨a, hwaits⟩ := h b hnext
    exact ⟨a, (hwaits.trans hwf hkeeps ht).1⟩
  obtain ⟨evs, hg, -, -, rfl⟩ := ht
  cases act with
  | acked c => cases hb
  | vacate c => cases hb
  | disabled c ds next =>
      refine ⟨c, hb, hg.1, ?_⟩
      show ((v.set c _).client c).state = pendingDisable
      rw [View.client_set, if_pos rfl]
  | detach c =>
      have hif : (if v.seat.nextClient = some c then none else v.seat.nextClient) = some b := hb
      split_ifs at hif with hc
      exact hkept (fun heq => hc (heq ▸ hif)) hif
  | _ => exact hkept trivial hb

/-- A client is queued only by `seat_set_next_session`. -/
theorem queued_by_switch {k : Kernel} {s : Server} (hwf : (s.view none).WF) {st : Step}
    {b : ClientId} (h : (step k s st).seat.nextClient = some b) :
    s.seat.nextClient = some b ∨ ∃ c session, st = .request c (.switchSession session) := by
  refine Path.invariant (I := fun v : View => v.seat.nextClient = some b →
    s.seat.nextClient = some b ∨ ∃ c session, st = .request c (.switchSession session)) ?_
    (step_path k s hwf st) Or.inl h
  rintro act u u' hact ⟨evs, -, -, -, rfl⟩ hu
  cases act with
  | acked c =>
      intro hb
      cases hb
  | vacate c =>
      intro hb
      cases hb
  | detach c =>
      intro hb
      have hif : (if u.seat.nextClient = some c then none else u.seat.nextClient) = some b := hb
      split_ifs at hif
      exact hu hif
  | disabled c ds next =>
      intro hb
      have hnext : next = some b := hb
      cases st with
      | request o r =>
          rcases hact with ⟨session, rfl⟩ | ⟨-, hdestroys⟩
          · exact Or.inr ⟨o, session, rfl⟩
          · rcases hdestroys with hremoves | hfree | hfree <;> first | cases hremoves | cases hfree
      | vtEvent oldVt newVt =>
          simp only [Step.Allows, Act.Opens, reduceCtorEq, false_or, Act.disabled.injEq, and_false,
            exists_false, or_false] at hact
          obtain ⟨c', ds', -, -, rfl⟩ := hact
          exact Or.inl hnext
      | _ => simp [Step.Allows, Act.Destroys, Act.Removes, Act.Frees, ControlRequest.Allows] at hact
  | _ => exact hu

theorem nextPending_run (k : Kernel) (vtBound : Bool) (steps : List Step) :
    ((run k vtBound steps).view none).NextPending := by
  have hinit : ((serverInit vtBound).view none).NextPending := fun b hb => by cases hb
  exact (run_of_acts k (I := View.NextPending) (C := fun _ _ => True)
    (fun _ _ _ _ _ _ _ hwf ht h => h.trans hwf ht) (wf_init vtBound) hinit steps
    (Run.meets_of_forall (fun _ _ => trivial) _ steps)).2

/-- A client that has left is never queued again. -/
theorem View.Gone.not_queued {k : Kernel} {s : Server} (hwf : (s.view none).WF) {b : ClientId}
    (h : (s.view none).Gone b) (steps : List Step) :
    (Run.run (step k) s steps).seat.nextClient ≠ some b := by
  obtain ⟨hwf', hgone⟩ := run_of_acts k (I := fun v : View => v.Gone b) (C := fun _ _ => True)
    (fun _ _ _ _ _ _ _ _ ht hv => hv.trans ht) hwf h steps
    (Run.meets_of_forall (fun _ _ => trivial) s steps)
  exact fun hnext => hgone.2.1 (hwf'.next b hnext).1

/-- What may have become of the queued client after a run. -/
theorem turn_run {k : Kernel} {s : Server} {a b : ClientId} (hwf : (s.view none).WF)
    (hb : s.seat.vtBound = false) (h : (s.view none).Waits a b) (steps : List Step) :
    SendsSucceed ((Run.run (step k) s steps).view none).log →
    (((Run.run (step k) s steps).view none).Waits a b
      ∧ openedClients ((Run.run (step k) s steps).view none).log = openedClients (s.view none).log)
    ∨ (∃ later, openedClients ((Run.run (step k) s steps).view none).log
      = later ++ b :: openedClients (s.view none).log)
    ∨ ∃ mid rest, steps = mid ++ rest ∧ ((Run.run (step k) s mid).view none).Gone b
      ∧ (Run.run (step k) s mid).seat.nextClient = none
      ∧ openedClients ((Run.run (step k) s mid).view none).log = openedClients (s.view none).log := by
  -- on the run, from its end: a step more ends the wait, or nothing is left to end
  induction steps using List.reverseRecOn with
  | nil => exact fun _ => Or.inl ⟨h, rfl⟩
  | append_singleton steps st ih =>
      have hrun : Run.run (step k) s (steps ++ [st]) = step k (Run.run (step k) s steps) st :=
        Run.run_append s steps [st]
      set s1 := Run.run (step k) s steps with hs1
      have hinv : (s1.view none).WF ∧ s1.seat.vtBound = false :=
        Run.run_invariant (P := fun s : Server => (s.view none).WF ∧ s.seat.vtBound = false)
          (fun s st h => ⟨h.1.path (step_path k s h.1 st), (vtBound_step h.1 st).trans h.2⟩)
          ⟨hwf, hb⟩ steps
      rw [hrun]
      intro hsends
      have hstep := step_path k s1 hinv.1 st
      rcases ih (hsends.mono (log_suffix_of_path hstep).subset) with
        ⟨hwaits, hopened⟩ | ⟨later, hopened⟩ | ⟨mid, rest, rfl, hgone⟩
      · cases (turn_step k s1 hinv.1 hinv.2 hwaits st hsends).after hopened with
        | waits hwaits' hopened' => exact Or.inl ⟨hwaits', hopened'⟩
        | opened later hopened' => exact Or.inr (Or.inl ⟨later, hopened'⟩)
        | left hgone hnext hopened' =>
            refine Or.inr (Or.inr ⟨steps ++ [st], [], (List.append_nil _).symm, ?_⟩)
            rw [hrun]
            exact ⟨hgone, hnext, hopened'⟩
      · obtain ⟨evs, hevs⟩ := log_suffix_of_path hstep
        refine Or.inr (Or.inl ⟨openedClients evs ++ later, ?_⟩)
        rw [← hevs, openedClients_append, hopened, List.append_assoc]
      · exact Or.inr (Or.inr ⟨mid, rest ++ [st], List.append_assoc mid rest [st], hgone⟩)

/-- **A queued switch is neither lost nor overtaken.** On a seat without VTs somebody is queued
only while the active client is PENDING_DISABLE, and only `seat_set_next_session` queues. If `b` is
queued and all sends succeed, then after any further steps `b` is still queued and nobody was
opened since; or `b` was the first to be opened since; or `b` has left before anybody was opened,
and then nobody is queued and `b` never will be again. -/
theorem queued_client_opens_first (k : Kernel) (steps : List Step) :
    let s := run k false steps
    (∀ b, s.seat.nextClient = some b →
      ∃ a, s.seat.activeClient = some a ∧ (s.clients a).state = pendingDisable)
    ∧ (∀ st b, (step k s st).seat.nextClient = some b →
      s.seat.nextClient = some b ∨ ∃ c session, st = .request c (.switchSession session))
    ∧ ∀ b, s.seat.nextClient = some b → ∀ more,
      SendsSucceed (run k false (steps ++ more)).trace →
      ((run k false (steps ++ more)).seat.nextClient = some b
        ∧ openedClients (run k false (steps ++ more)).trace = openedClients s.trace)
      ∨ (∃ later, openedClients (run k false (steps ++ more)).trace
        = later ++ b :: openedClients s.trace)
      ∨ ∃ mid rest, more = mid ++ rest
        ∧ openedClients (run k false (steps ++ mid)).trace = openedClients s.trace
        ∧ b ∉ (run k false (steps ++ mid)).seat.clients
        ∧ (run k false (steps ++ mid)).seat.nextClient = none
        ∧ ∀ rest', (run k false (steps ++ mid ++ rest')).seat.nextClient ≠ some b := by
  intro s
  have hwf : (s.view none).WF := wf_run k false steps
  have hruns : ∀ more, run k false (steps ++ more) = Run.run (step k) s more := fun more =>
    Run.run_append (serverInit false) steps more
  refine ⟨fun b hb => ?_, fun st b hb => queued_by_switch hwf hb, fun b hb more hsends => ?_⟩
  · obtain ⟨a, hwaits⟩ := nextPending_run k false steps b hb
    exact ⟨a, hwaits.active, hwaits.pending⟩
  · obtain ⟨a, hwaits⟩ := nextPending_run k false steps b hb
    rw [hruns] at hsends ⊢
    simp only [← openedClients_view _ none]
    rcases turn_run hwf (vtBound_run k false steps) hwaits more (hsends.log none) with
      ⟨hwaits', hopened⟩ | hopened | ⟨mid, rest, hmore, hgone, hnext, hopened⟩
    · exact Or.inl ⟨hwaits'.next, hopened⟩
    · exact Or.inr (Or.inl hopened)
    · refine Or.inr (Or.inr ⟨mid, rest, hmore, ?_⟩)
      have hmid : ((Run.run (step k) s mid).view none).WF := by
        rw [← hruns]
        exact wf_run k false (steps ++ mid)
      have hlater : ∀ rest', run k false (steps ++ mid ++ rest')
          = Run.run (step k) (Run.run (step k) s mid) rest' := fun rest' => by
        rw [List.append_assoc, hruns]
        exact Run.run_append s mid rest'
      rw [hruns]
      refine ⟨hopened, hgone.2.1, hnext, fun rest' => ?_⟩
      rw [hlater]
      exact hgone.not_queued hmid rest'

/-- Two clients, of which the first asks for a switch to the second. -/
def askForSwitch : List Step :=
  [.connect 7, .request 0 .openSeat, .connect 8, .request 1 .openSeat, .request 0 (.switchSession 2)]

/-- When the first client acknowledges, the second is the next to be opened. -/
theorem queued_client_opens_first_two :
    ∃ later, openedClients (run (.obliging 1) false
        (askForSwitch ++ [.request 0 .disableSeat])).trace
      = later ++ 1 :: openedClients (run (.obliging 1) false askForSwitch).trace := by
  rcases (queued_client_opens_first (.obliging 1) askForSwitch).2.2 1 (by decide +kernel)
    [.request 0 .disableSeat] (by decide +kernel) with hwaits | hopened | ⟨mid, rest, hmore, -, hoff, -⟩
  · exact absurd hwaits.1 (by decide +kernel)
  · exact hopened
  · rcases List.append_eq_singleton_iff.mp hmore.symm with ⟨rfl, -⟩ | ⟨rfl, -⟩
    · exact absurd (by decide +kernel) hoff
    · exact absurd (by decide +kernel) hoff

end DdeSeatd
