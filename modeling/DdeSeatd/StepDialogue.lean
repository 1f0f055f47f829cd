import DdeSeatd.Dialogue

set_option autoImplicit false

/-! # The dialogue of a step

Every step of the daemon is a sequence of talks and system calls, and its talks with a peer
follow from what the step is about (`step_dialogue`). The runs of the daemon keep every
connection sound, and a peer that has not been accepted yet has never been talked to
(`kept_run`).
-/

namespace DdeSeatd

open Labelled

section

variable (k : Kernel) (s : Server) {ts : List Talk} {st : Step} {c : ClientId}

/-! ## Seat clients -/

theorem live_handleRequest (h : (s.view none).WF) (hlive : c ∈ s.live)
    (r : Request) : (handleRequest k s c r).2.live = s.live := by
  refine live_of_path (fun a ha => ⟨?_, ?_⟩) (handleRequest_path k s h hlive r)
  · rintro rfl
    cases ha
  · cases a <;> first | exact id | cases ha

/-- **The request of a client**: one reply and a flush, or the end of the client. Others hear at
most one event. -/
theorem clientHandleRequest_about (h : (s.view none).WF) (hlive : c ∈ s.live) (r : Request) :
    ∃ ts, Talks k ts s (clientHandleRequest k s c r)
      ∧ AboutClient s c (RequestTalks c r) ts := by
  obtain ⟨ts, htalk, hts⟩ := handleRequest_talks k s h hlive r
  obtain ⟨hown, hothers, hcontrols⟩ := talksWith_handles hts
  have hwf : ((handleRequest k s c r).2.view none).WF := h.path (handleRequest_path k s h hlive r)
  -- what others hear before the client is destroyed, or instead of it
  have hheard : ∀ x, x ≠ c → OtherTalks s x (talksWith (.client x) ts) := by
    intro x hx
    rcases hothers x hx with hnil | ⟨hP, m, ok, hm, hev⟩
    · rw [hnil]
      exact ⟨.nil _, fun hne => absurd rfl hne⟩
    · rw [hev]
      refine ⟨.inr ⟨x, m, ok, rfl, hm, rfl⟩, fun _ => ?_⟩
      exact live_of_clients h (hP.resolve_left hx).1
  -- the end of the client, reached with the seat and the clients as the handler left them
  have hend : ∀ s' : Server, s'.view none = (handleRequest k s c r).2.view none →
      ∃ ts', Talks k ts' s' (clientDestroy k s' c)
        ∧ talksWith (.client c) ts' = [.close (.client c)]
        ∧ (∀ x, x ≠ c → OtherTalks s x (talksWith (.client x) ts ++ talksWith (.client x) ts'))
        ∧ ∀ i, talksWith (.control i) ts' = [] := by
    intro s' hview
    have hseat : s'.seat = (handleRequest k s c r).2.seat := congrArg View.seat hview
    have hc : (s'.clients c).seat = ((handleRequest k s c r).2.clients c).seat :=
      congrArg (fun v : View => (v.client c).seat) hview
    obtain ⟨ts', htalk', hts'⟩ := clientDestroy_talks k s' (c := c) (by rw [hview]; exact hwf)
    obtain ⟨hself, hrest, hctl⟩ := talksWith_destroy hts'
    refine ⟨_, htalk', hself, fun x hx => ?_, hctl⟩
    rw [hrest x hx]
    rcases talksWith_hails (x := x) hts' with hnil | ⟨⟨-, hmem, hactive, hon⟩, m, ok, hm, hev⟩
    · rw [hnil, List.append_nil]
      exact hheard x hx
    · -- the client held the seat to the end, so nobody else was told before
      rcases hothers x hx with hnil | ⟨hP, -⟩
      · rw [hnil, hev]
        refine ⟨.inr ⟨x, m, ok, rfl, hm, rfl⟩, fun _ => ?_⟩
        have hmem' : x ∈ (handleRequest k s c r).2.seat.clients := hseat ▸ hmem
        rw [← live_handleRequest k s h hlive r]
        exact live_of_clients hwf hmem'
      · rcases (hP.resolve_left hx).2 with hno | hoff
        · exact absurd (hseat ▸ hactive) hno
        · rw [hc, hoff] at hon
          cases hon
  have hflushOther : ∀ {ok : Bool} {p : Peer}, p ≠ .client c → talksWith p [.flush c ok] = [] :=
    fun hp => talksWith_single_other hp.symm
  have hflushSelf : ∀ ok, talksWith (.client c) [.flush c ok] = [.flush c ok] :=
    fun ok => talksWith_self (.flush c ok)
  unfold clientHandleRequest
  dsimp only
  cases hok : (handleRequest k s c r).1 with
  | false =>
      rw [hok] at hown
      obtain ⟨before, reply, hsplit, hbefore, hreply⟩ := hown
      obtain ⟨ts', htalk', hself, hrest, hctl⟩ := hend _ rfl
      rw [if_neg Bool.false_ne_true]
      refine ⟨_, htalk.trans htalk', ?_, fun x hx => ?_, fun i => ?_⟩
      · rw [talksWith_append, hself, hsplit]
        exact .failed hbefore hreply
      · rw [talksWith_append]
        exact hrest x hx
      · rw [talksWith_append, hcontrols, hctl]
        rfl
  | true =>
      rw [hok] at hown
      obtain ⟨before, t, after, hsplit, hbefore, hafter, ht⟩ := hown
      have hview := view_clientFlush k (handleRequest k s c r).2 none c
      have hflush : Talks k [.flush c (clientFlush k (handleRequest k s c r).2 c).1]
          (handleRequest k s c r).2 (clientFlush k (handleRequest k s c r).2 c).2 := .one rfl
      rw [if_pos rfl]
      cases hf : (clientFlush k (handleRequest k s c r).2 c).1 with
      | true =>
          rw [hf] at hflush
          rw [if_pos rfl]
          refine ⟨_, htalk.trans hflush, ?_, fun x hx => ?_, fun i => ?_⟩
          · rw [talksWith_append, hflushSelf, hsplit]
            exact .served hbefore hafter ht
          · rw [talksWith_append, hflushOther (client_ne hx), List.append_nil]
            exact hheard x hx
          · rw [talksWith_append, hcontrols, hflushOther (by simp)]
            rfl
      | false =>
          rw [hf] at hflush
          rw [if_neg Bool.false_ne_true]
          obtain ⟨ts', htalk', hself, hrest, hctl⟩ := hend _ hview
          refine ⟨_, (htalk.trans hflush).trans htalk', ?_, fun x hx => ?_, fun i => ?_⟩
          · rw [talksWith_append, talksWith_append, hflushSelf, hself, hsplit, List.append_assoc]
            exact .unsent hbefore hafter ht
          · rw [talksWith_append, talksWith_append, hflushOther (client_ne hx), List.append_nil]
            exact hrest x hx
          · rw [talksWith_append, talksWith_append, hcontrols, hctl, hflushOther (by simp)]
            rfl

/-- The talks with a new peer: accepted, unless something fails before, and dropped again if it
cannot be watched. -/
def Accepted (p : Peer) (ts : List Talk) : Prop :=
  ts = [] ∨ ts = [.accept p] ∨ ts = [.accept p, .close p]

theorem Tried.quiet {k : Kernel} {s s' : Server} (h : Tried k s s') :
    Calls (fun _ => True) s s' := h.calls fun _ _ => trivial

theorem Tried.accepts {k : Kernel} {s s₁ s₂ : Server} (h : Tried k s s₁) {p : Peer}
    (hp : (Talk.accept p).Does k s₁ s₂) : Talks k [.accept p] s (s₂.call k .pollerAddFd).2 :=
  Talks.calls (.after h.quiet (.one hp))
    ((Calls.refl (Q := fun _ => True) s₂).call k trivial)

theorem serverAddClient_talks (pid : Int) :
    ∃ ts, Talks k ts s (serverAddClient k s pid) ∧ Accepted (.client s.nextClientId) ts := by
  have hadd : ∀ s₁, Tried k s s₁ → Talks k [.accept (.client s.nextClientId)] s
      ((clientCreate s₁ pid).call k .pollerAddFd).2 :=
    fun s₁ h => h.accepts ⟨h.quiet.nextClientId.symm, pid, rfl⟩
  refine serverAddClient_cases (motive := fun s' => ∃ ts, Talks k ts s s' ∧ Accepted _ ts) pid
    (fun s₁ h => ⟨[], .quiet h.quiet, .inl rfl⟩) (fun s₁ h => ⟨_, hadd s₁ h, .inr (.inl rfl)⟩)
    fun s₁ h => ⟨_, (hadd s₁ h).trans (.one (t := .close (.client s.nextClientId)) ?_),
      .inr (.inr rfl)⟩
  show _ = clientFree _ s.nextClientId
  rw [clientDestroy_eq, seat_clientCreate, if_neg Bool.false_ne_true, h.quiet.nextClientId]

/-! ## Control clients -/

theorem controlAddClient_talks (pid : Int) :
    ∃ ts, Talks k ts s (controlAddClient k s pid) ∧ Accepted (.control s.nextControlId) ts := by
  have hadd : ∀ s₁, Tried k s s₁ → Talks k [.accept (.control s.nextControlId)] s
      ((controlCreate s₁ pid).call k .pollerAddFd).2 :=
    fun s₁ h => h.accepts ⟨h.quiet.nextControlId.symm, pid, rfl⟩
  refine controlAddClient_cases (motive := fun s' => ∃ ts, Talks k ts s s' ∧ Accepted _ ts) pid
    (fun s₁ h => ⟨[], .quiet h.quiet, .inl rfl⟩) (fun s₁ h => ⟨_, hadd s₁ h, .inr (.inl rfl)⟩)
    fun s₁ h => ⟨_, (hadd s₁ h).trans (.one (t := .close (.control s.nextControlId)) ?_),
      .inr (.inr rfl)⟩
  show _ = controlClientDestroy _ s.nextControlId
  rw [h.quiet.nextControlId]

/-- The request is served without an answer: a group VT is destroyed. -/
def ControlRequest.silent (s : Server) : ControlRequest → Bool
  | .destroyGroupVt vt => (seatFindGroupVt s.seat vt).isSome
  | _ => false

/-- The replies a request may get. -/
def ControlRequest.answeredBy : ControlRequest → ControlMsg → Bool
  | _, .error _ => true
  | .createGroupVt _ _, .groupVtCreated _ _ => true
  | .destroyGroupVt _, .ok => true
  | .getActiveVt, .activeVt _ => true
  | .findFreeVt, .freeVt _ => true
  | .switchVt _, .ok => true
  | _, _ => false

/-- A handler of a control request ends with its reply, except that a group VT is destroyed
without one. -/
theorem handleControlRequest_cases (i : ControlId) (r : ControlRequest) :
    (r.silent s = true ∧ ∃ s₁, Calls (fun _ => True) s s₁ ∧ handleControlRequest k s i r = (true, s₁))
      ∨ r.silent s = false ∧ ∃ s₁ m, Calls (fun _ => True) s s₁ ∧ r.answeredBy m = true
          ∧ handleControlRequest k s i r = controlSendMessage k s₁ i m := by
  have hrefl := Calls.refl (Q := fun _ => True) s
  have hreply : ∀ (q : Int × Server) (m : Int → ControlMsg), Calls (fun _ => True) s q.2 →
      (∀ vt, r.answeredBy (m vt) = true) →
      ∃ s₁ m', Calls (fun _ => True) s s₁ ∧ r.answeredBy m' = true
        ∧ controlReplyVt k i m q = controlSendMessage k s₁ i m' := by
    intro q m hq hm
    unfold controlReplyVt
    split_ifs
    · exact ⟨q.2, _, hq, by cases r <;> rfl, rfl⟩
    · exact ⟨q.2, _, hq, hm _, rfl⟩
  cases r with
  | createGroupVt ownerPid vt =>
      refine .inr ⟨rfl, ?_⟩
      show ∃ s₁ m, _ ∧ _ ∧ handleCreateGroupVt k s i ownerPid vt = _
      unfold handleCreateGroupVt
      split
      · exact ⟨s, _, hrefl, rfl, rfl⟩
      · split_ifs
        · exact ⟨s, _, hrefl, rfl, rfl⟩
        · exact hreply _ _ (calls_seatCreateGroupVt k s _ vt).any fun _ => rfl
  | destroyGroupVt vt =>
      have hdestroy := (calls_seatDestroyGroupVt k s vt).any
      have hfst : (seatDestroyGroupVt k s vt).1 = (seatFindGroupVt s.seat vt).isSome := by
        unfold seatDestroyGroupVt
        cases seatFindGroupVt s.seat vt <;> rfl
      show (_ ∧ ∃ s₁, _ ∧ handleDestroyGroupVt k s i vt = _)
        ∨ _ ∧ ∃ s₁ m, _ ∧ _ ∧ handleDestroyGroupVt k s i vt = _
      unfold handleDestroyGroupVt
      dsimp only
      split_ifs with hok
      · exact .inl ⟨hfst.symm.trans hok, _, hdestroy, Prod.ext hok rfl⟩
      · exact .inr ⟨hfst.symm.trans (Bool.eq_false_iff.mpr hok), _, _, hdestroy, rfl, rfl⟩
  | getActiveVt => exact .inr ⟨rfl, hreply _ _ (calls_seatGetActiveVt k s).any fun _ => rfl⟩
  | findFreeVt => exact .inr ⟨rfl, hreply _ _ (calls_seatFindAvailableVt k s).any fun _ => rfl⟩
  | switchVt vt =>
      refine .inr ⟨rfl, _, _, (calls_seatSwitchVt k s vt).any, ?_, rfl⟩
      split_ifs <;> rfl
  | invalid => exact .inr ⟨rfl, s, _, hrefl, rfl, rfl⟩

/-- Messages to control clients only. -/
def Messages (ts : List Talk) : Prop := ∀ t ∈ ts, ∃ i m ok, t = .message i m ok

/-- The talks of a control request. -/
def Answered (s : Server) (i : ControlId) (r : ControlRequest) (ts : List Talk) : Prop :=
  if r.silent s then ts = [] else ∃ m ok, r.answeredBy m = true ∧ ts = [.message i m ok]

theorem Answered.messages {s : Server} {i : ControlId} {r : ControlRequest}
    (h : Answered s i r ts) : Messages ts := by
  unfold Answered at h
  split_ifs at h
  · subst h
    exact fun _ ht => by cases ht
  · obtain ⟨m, ok, -, rfl⟩ := h
    exact fun t ht => ⟨i, m, ok, List.mem_singleton.mp ht⟩

theorem controlHandleRequest_talks (i : ControlId) (r : ControlRequest) :
    ∃ ts, Talks k ts s (controlHandleRequest k s i r) ∧ Answered s i r ts := by
  unfold controlHandleRequest Answered
  dsimp only
  rcases handleControlRequest_cases k s i r with
    ⟨hsilent, s₁, hcalls, heq⟩ | ⟨hsilent, s₁, m, hcalls, hm, heq⟩
  · rw [heq, if_pos rfl]
    exact ⟨[], .quiet hcalls, by rw [if_pos hsilent]⟩
  · rw [heq, hsilent]
    exact ⟨[.message i m (controlSendMessage k s₁ i m).1], .after hcalls (.one ⟨rfl, rfl⟩),
      m, _, hm, rfl⟩

/-- One message to each of these control clients. -/
def Broadcasts (m : ControlMsg) (is : List ControlId) (ts : List Talk) : Prop :=
  List.Forall₂ (fun i t => ∃ ok, t = Talk.message i m ok) is ts

theorem Broadcasts.messages {m : ControlMsg} {is : List ControlId}
    (h : Broadcasts m is ts) : Messages ts := by
  induction h with
  | nil => exact fun _ ht => by cases ht
  | @cons i t is ts hhead _ ih =>
      obtain ⟨ok, rfl⟩ := hhead
      intro t ht
      rcases List.mem_cons.mp ht with rfl | ht
      · exact ⟨i, m, ok, rfl⟩
      · exact ih t ht

theorem controlBroadcastTo_talks (m : ControlMsg) (is : List ControlId) :
    ∃ ts, Talks k ts s (controlBroadcastTo k m s is) ∧ Broadcasts m is ts := by
  induction is generalizing s with
  | nil => exact ⟨[], .refl s, .nil⟩
  | cons i is ih =>
      obtain ⟨ts, htalk, hts⟩ := ih (if (controlSendMessage k s i m).1
        then (controlSendMessage k s i m).2
        else controlClientDestroy (controlSendMessage k s i m).2 i)
      refine ⟨.message i m (controlSendMessage k s i m).1 :: ts, ?_, .cons ⟨_, rfl⟩ hts⟩
      have hmessage : Talks k [.message i m (controlSendMessage k s i m).1] s _ := .one ⟨rfl, rfl⟩
      exact hmessage.trans htalk

theorem controlHandleWritable_talks (i : ControlId) :
    ∃ ts, Talks k ts s (controlHandleWritable k s i)
      ∧ ((∃ ok, ts = [.drain (.control i) ok])
        ∨ ts = [.drain (.control i) false, .close (.control i)]) := by
  unfold controlHandleWritable
  dsimp only
  split_ifs with hok herrno
  · exact ⟨_, .one (t := .drain (.control i) true) ⟨hok, rfl⟩, .inl ⟨true, rfl⟩⟩
  · have hfail : (s.flush k (.control i)).1 = false := by simpa using hok
    have hflush : Talks k [.drain (.control i) false] s (s.flush k (.control i)).2 :=
      .one ⟨hfail, rfl⟩
    exact ⟨_, hflush.trans (.one (t := .close (.control i)) rfl), .inr rfl⟩
  · have hfail : (s.flush k (.control i)).1 = false := by simpa using hok
    exact ⟨_, .one (t := .drain (.control i) false) ⟨hfail, rfl⟩, .inl ⟨false, rfl⟩⟩

/-! ## VT events -/

/-- The control clients that a VT event is broadcast to: the daemon is reached through a client of
the seat. -/
def Server.listeners (s : Server) : List ControlId :=
  if s.seat.clients = [] then [] else s.controlClients

/-- A VT event is broadcast before the active client is looked at. -/
theorem seatNoteVt_talks (oldVt newVt : Int) :
    ∃ bs, Talks k bs s (seatNoteVt k s oldVt newVt)
      ∧ Broadcasts (.vtChanged oldVt newVt) s.listeners bs := by
  unfold seatNoteVt Server.listeners
  extract_lets pending seat s1
  have hquiet : Calls (fun _ => True) s s1 := (Calls.refl s).setSeat _
  rw [show s1.seat.clients = s.seat.clients from rfl]
  split_ifs
  · exact ⟨[], .quiet hquiet, .nil⟩
  · obtain ⟨bs, hbs, hmessages⟩ :=
      controlBroadcastTo_talks k s1 (.vtChanged oldVt newVt) s1.controlClients
    exact ⟨bs, .after hquiet hbs, hmessages⟩

theorem seatHandleVtEvent_talks (h : (s.view none).WF) (oldVt newVt : Int) :
    ∃ bs es, Talks k (bs ++ es) s (seatHandleVtEvent k s oldVt newVt)
      ∧ Broadcasts (.vtChanged oldVt newVt) s.listeners bs ∧ Hails (· ∈ s.seat.clients) es := by
  obtain ⟨bs, hbs, hmessages⟩ := seatNoteVt_talks k s oldVt newVt
  have hview := view_seatNoteVt k s none oldVt newVt
  set s2 := seatNoteVt k s oldVt newVt with hs2
  cases ha : s.seat.activeClient with
  | some a =>
      have hmem : a ∈ s.seat.clients := (h.active a ha).1.resolve_right nofun
      rw [seatHandleVtEvent_some k s ha, ← hs2]
      split_ifs
      · exact ⟨bs, [], by simpa using hbs.calls (calls_seatRestoreClientDrmMaster k s2 a),
          hmessages, .nil _⟩
      · obtain ⟨es, hes, hhails⟩ := seatDisableClient_talks k s2 a
        refine ⟨bs, es, hbs.trans hes, hmessages, hhails.mono ?_⟩
        rintro x rfl
        exact hmem
      · exact ⟨bs, [], by simpa using hbs, hmessages, .nil _⟩
  | none =>
      obtain ⟨es, hes, hhails⟩ := seatActivate_talks k s2
      rw [seatHandleVtEvent_none k s ha]
      refine ⟨bs, es, hbs.trans hes, hmessages, hhails.mono ?_⟩
      rintro x ⟨hx, -⟩
      rw [show s2.seat.clients = s.seat.clients from congrArg (fun v : View => v.seat.clients) hview,
        show s2.seat.nextClient = s.seat.nextClient from
          congrArg (fun v : View => v.seat.nextClient) hview] at hx
      exact hx.elim id fun hn => (h.next x hn).1

/-! ## Steps -/

/-- The talks with the client that a step is about. -/
def Step.Own (st : Step) (x : ClientId) (ts : List Talk) : Prop :=
  match st with
  | .request _ r => RequestTalks x r ts
  | .writable _ =>
      (∃ ok, ts = [.drain (.client x) ok])
        ∨ ts = [.drain (.client x) false, .close (.client x)]
  | _ => ts = [.close (.client x)]

/-- The talks of a step with a seat client. -/
def ClientTalks (s : Server) (st : Step) (x : ClientId) (ts : List Talk) : Prop :=
  if st.client = some x ∧ x ∈ s.live then st.Own x ts
  else
    OtherTalks s x ts
    ∨ x = s.nextClientId
      ∧ (ts = [.accept (.client x)] ∨ ts = [.accept (.client x), .close (.client x)])

/-- The talks of a step with a control client. -/
def ControlTalks (s : Server) (i : ControlId) (ts : List Talk) : Prop :=
  Messages ts
  ∨ (i = s.nextControlId
      ∧ (ts = [.accept (.control i)] ∨ ts = [.accept (.control i), .close (.control i)]))
  ∨ (∃ ok, ts = [.drain (.control i) ok])
  ∨ ts = [.drain (.control i) false, .close (.control i)]
  ∨ ts = [.close (.control i)]

theorem Messages.nil : Messages [] := fun _ h => by cases h

theorem OtherTalks.nil (s : Server) (x : ClientId) : OtherTalks s x [] :=
  ⟨.nil _, fun hne => absurd rfl hne⟩

theorem Messages.talksWith (h : Messages ts) :
    (∀ c, talksWith (.client c) ts = []) ∧ ∀ i, Messages (DdeSeatd.talksWith (.control i) ts) := by
  constructor
  · intro c
    apply talksWith_other
    intro t ht
    obtain ⟨i, m, ok, rfl⟩ := h t ht
    simp [Talk.peer]
  · intro i t ht
    exact h t (List.mem_filter.mp ht).1

/-- What a step says to everyone. -/
structure StepTalks (s : Server) (st : Step) (ts : List Talk) : Prop where
  clients : ∀ x, ClientTalks s st x (talksWith (.client x) ts)
  controls : ∀ i, ControlTalks s i (talksWith (.control i) ts)

theorem StepTalks.silent {s : Server}
    (h : ∀ x, ¬ (st.client = some x ∧ x ∈ s.live)) : StepTalks s st [] :=
  ⟨fun x => by rw [ClientTalks, if_neg (h x)]; exact .inl (.nil s x), fun _ => .inl .nil⟩

/-- A step about nobody that talks to control clients and hails seat clients. -/
theorem StepTalks.of_messages {s : Server} {bs es : List Talk} (hst : st.client = none)
    (hbs : Messages bs) (hes : Hails (· ∈ s.live) es) :
    StepTalks s st (bs ++ es) := by
  refine ⟨fun x => ?_, fun i => ?_⟩
  · rw [ClientTalks, if_neg (by simp [hst]), talksWith_append, hbs.talksWith.1 x,
      List.nil_append]
    exact .inl (otherTalks_of_hails hes id)
  · rw [talksWith_append, talksWith_hails_control hes, List.append_nil]
    exact .inl (hbs.talksWith.2 i)

/-- A step about one live client. -/
theorem StepTalks.of_about {s : Server} (hst : st.client = some c) (hlive : c ∈ s.live)
    (h : AboutClient s c (st.Own c) ts) :
    StepTalks s st ts := by
  refine ⟨fun x => ?_, fun i => ?_⟩
  · unfold ClientTalks
    by_cases hx : x = c
    · subst hx
      rw [if_pos ⟨hst, hlive⟩]
      exact h.own
    · rw [if_neg fun hc => hx (Option.some.inj (hc.1.symm.trans hst))]
      exact .inl (h.others x hx)
  · rw [h.controls i]
    exact .inl .nil

/-- A step that talks to one peer only, which is not a client that it is about. -/
theorem StepTalks.of_single {s : Server} {p : Peer} (hst : st.client = none)
    (hp : ∀ t ∈ ts, t.peer = p)
    (hclient : ∀ c, p = .client c → c = s.nextClientId
      ∧ (ts = [.accept (.client c)] ∨ ts = [.accept (.client c), .close (.client c)]))
    (hcontrol : ∀ i, p = .control i → ControlTalks s i ts) : StepTalks s st ts := by
  have hself : talksWith p ts = ts := by simpa [talksWith, List.filter_eq_self] using hp
  have hother : ∀ q, q ≠ p → talksWith q ts = [] := fun q hq =>
    talksWith_other fun t ht heq => hq (heq.symm.trans (hp t ht))
  refine ⟨fun x => ?_, fun i => ?_⟩
  · rw [ClientTalks, if_neg (by simp [hst])]
    by_cases hx : .client x = p
    · have hself' : talksWith (.client x) ts = ts := hx ▸ hself
      rw [hself']
      exact .inr (hclient x hx.symm)
    · rw [hother _ hx]
      exact .inl (.nil s x)
  · by_cases hi : .control i = p
    · rw [hi, hself]
      exact hcontrol i hi.symm
    · rw [hother _ hi]
      exact .inl .nil

/-- **A step of the daemon is a dialogue**: with each peer it has the talks that belong to what
the step is about. -/
theorem step_dialogue (h : (s.view none).WF) (st : Step) :
    ∃ ts, Talks k ts s (step k s st) ∧ StepTalks s st ts := by
  unfold step
  split_ifs with hgone
  · by_cases hclient : ∃ x, st.client = some x ∧ x ∈ s.live
    · -- the step is about a control client that is gone, so not about a seat client
      obtain ⟨x, hx, hlive⟩ := hclient
      have hgone' : ∃ i ∈ st.controlClient, i ∉ s.controlClients := by
        refine hgone.resolve_left ?_
        rintro ⟨c, hc, hdead⟩
        rw [hx] at hc
        cases hc
        exact hdead hlive
      obtain ⟨i, hi, -⟩ := hgone'
      cases st <;> simp [Step.client, Step.controlClient] at hx hi
    · exact ⟨[], .refl s, .silent fun x hx => hclient ⟨x, hx⟩⟩
  have hlive := (here_of_made hgone).1
  cases st with
  | connect pid =>
      obtain ⟨ts, htalk, hts⟩ := serverAddClient_talks k s pid
      refine ⟨ts, htalk, ?_⟩
      rcases hts with rfl | hts
      · exact .silent fun x hx => by simp [Step.client] at hx
      · refine .of_single (p := .client s.nextClientId) rfl ?_ ?_ (fun i hi => by cases hi)
        · rcases hts with rfl | rfl <;> simp [Talk.peer]
        · rintro c hc
          cases hc
          exact ⟨rfl, hts⟩
  | request c r =>
      obtain ⟨ts, htalk, habout⟩ := clientHandleRequest_about k s h (hlive c rfl) r
      exact ⟨ts, htalk, .of_about rfl (hlive c rfl) habout⟩
  | writable c =>
      obtain ⟨ts, htalk, habout⟩ := clientHandleWritable_about k s (c := c) h
      exact ⟨ts, htalk, .of_about rfl (hlive c rfl) habout⟩
  | disconnect c =>
      obtain ⟨ts, htalk, habout⟩ := clientDestroy_about k s (c := c) h
      exact ⟨ts, htalk, .of_about rfl (hlive c rfl) habout⟩
  | vtRelease =>
      exact ⟨[], .quiet (calls_seatVtRelease k s), .silent fun x hx => by simp [Step.client] at hx⟩
  | vtAcquire =>
      exact ⟨[], .quiet (calls_seatVtActivate k s), .silent fun x hx => by simp [Step.client] at hx⟩
  | vtEvent oldVt newVt =>
      obtain ⟨bs, es, htalk, hbs, hes⟩ := seatHandleVtEvent_talks k s h oldVt newVt
      exact ⟨_, htalk, .of_messages rfl hbs.messages (hes.mono fun x hx => live_of_clients h hx)⟩
  | controlConnect pid =>
      obtain ⟨ts, htalk, hts⟩ := controlAddClient_talks k s pid
      refine ⟨ts, htalk, ?_⟩
      rcases hts with rfl | hts
      · exact .silent fun x hx => by simp [Step.client] at hx
      · refine .of_single (p := .control s.nextControlId) rfl ?_ (fun c hc => by cases hc) ?_
        · rcases hts with rfl | rfl <;> simp [Talk.peer]
        · rintro i hi
          cases hi
          exact .inr (.inl ⟨rfl, hts⟩)
  | control i r =>
      obtain ⟨ts, htalk, hts⟩ := controlHandleRequest_talks k s i r
      have hall : StepTalks s (.control i r) (ts ++ []) := .of_messages rfl hts.messages (.nil _)
      rw [List.append_nil] at hall
      exact ⟨ts, htalk, hall⟩
  | controlWritable i =>
      obtain ⟨ts, htalk, hts⟩ := controlHandleWritable_talks k s i
      refine ⟨ts, htalk, .of_single (p := .control i) rfl ?_ (fun c hc => by cases hc) ?_⟩
      · rcases hts with ⟨ok, rfl⟩ | rfl <;> simp [Talk.peer]
      · rintro j hj
        cases hj
        rcases hts with hts | hts
        · exact .inr (.inr (.inl hts))
        · exact .inr (.inr (.inr (.inl hts)))
  | controlDisconnect i =>
      refine ⟨[.close (.control i)], .one rfl,
        .of_single (p := .control i) rfl (by simp [Talk.peer]) (fun c hc => by cases hc) ?_⟩
      rintro j hj
      cases hj
      exact .inr (.inr (.inr (.inr rfl)))

end

/-! ## Runs -/

/-- Nothing was ever said to the peer. -/
def Channel.Virgin (ch : Channel) : Prop :=
  ch.sent = [] ∧ ch.closed = [] ∧ ch.queued = [] ∧ ch.frames = [] ∧ ch.unflushed = []
    ∧ ch.devices = []

/-- Lists of peers as talks keep them: no peer twice, and none that is still to come. -/
structure Server.PeersOk (s : Server) : Prop where
  liveNodup : s.live.Nodup
  liveFresh : ∀ c ∈ s.live, c < s.nextClientId
  controlsNodup : s.controlClients.Nodup
  controlsFresh : ∀ i ∈ s.controlClients, i < s.nextControlId

/-- What holds of the connections in every state of the daemon. -/
structure Server.Kept (s : Server) : Prop where
  wf : (s.view none).WF
  sound : s.Sound
  virgin : ∀ c, s.nextClientId ≤ c → (s.channel (.client c)).Virgin
  peers : s.PeersOk

/-- The daemon has a connection to the peer. -/
def Server.Present (s : Server) : Peer → Prop
  | .client c => c ∈ s.live
  | .control i => i ∈ s.controlClients

/-- Whether the peer is there after a talk with it. -/
def Talk.presence (here : Prop) : Talk → Prop
  | .accept _ => True
  | .close _ | .message _ _ false => False
  | _ => here

section

variable {ids : List Nat} {next id : Nat}

/-- The next identifier is put in front of a list. -/
theorem nodup_cons_next (hnodup : ids.Nodup) (hfresh : ∀ x ∈ ids, x < next) (hid : id = next) :
    (id :: ids).Nodup ∧ ∀ x ∈ id :: ids, x < id + 1 := by
  refine ⟨List.nodup_cons.mpr ⟨fun hmem => (hfresh id hmem).ne hid, hnodup⟩, fun x hx => ?_⟩
  rcases List.mem_cons.mp hx with rfl | hx
  · exact Nat.lt_succ_self x
  · exact hid ▸ Nat.lt_succ_of_lt (hfresh x hx)

/-- An identifier is taken out of a list. -/
theorem nodup_erase (hnodup : ids.Nodup) (hfresh : ∀ x ∈ ids, x < next) :
    (ids.erase id).Nodup ∧ ∀ x ∈ ids.erase id, x < next :=
  ⟨hnodup.erase id, fun x hx => hfresh x (List.mem_of_mem_erase hx)⟩

end

theorem Talk.Spec.peersOk {t : Talk} {s s' : Server} (h : t.Spec s s') (hs : s.PeersOk) :
    s'.PeersOk := by
  obtain ⟨hlive, hliveFresh, hcontrols, hcontrolsFresh⟩ := hs
  have hnumbers := h.numbers
  -- a talk that neither accepts nor closes anyone, and one that only touches the other list
  have hkeep : ∀ live controls, live.Nodup ∧ (∀ x ∈ live, x < s.nextClientId) →
      controls.Nodup ∧ (∀ x ∈ controls, x < s.nextControlId) → s'.live = live →
      s'.controlClients = controls → s'.nextClientId = s.nextClientId →
      s'.nextControlId = s.nextControlId → s'.PeersOk := by
    rintro _ _ ⟨hl, hlf⟩ ⟨hc, hcf⟩ rfl rfl hn hn'
    exact ⟨hl, hn.symm ▸ hlf, hc, hn'.symm ▸ hcf⟩
  have hlives := And.intro hlive hliveFresh
  have hcontrolss := And.intro hcontrols hcontrolsFresh
  match t, hnumbers, h.live, h.controlClients with
  | .accept (.client c), ⟨hc, hnext, hnext'⟩, hl, hcl =>
      obtain ⟨hnodup, hfresh⟩ := nodup_cons_next hlive hliveFresh hc
      exact ⟨hl ▸ hnodup, by rw [hl, hnext]; exact hfresh, hcl ▸ hcontrols,
        by rw [hcl, hnext']; exact hcontrolsFresh⟩
  | .accept (.control i), ⟨hi, hnext, hnext'⟩, hl, hcl =>
      obtain ⟨hnodup, hfresh⟩ := nodup_cons_next hcontrols hcontrolsFresh hi
      exact ⟨hl ▸ hlive, by rw [hl, hnext']; exact hliveFresh, hcl ▸ hnodup,
        by rw [hcl, hnext]; exact hfresh⟩
  | .close (.client c), ⟨hn, hn'⟩, hl, hcl =>
      exact hkeep _ _ (nodup_erase hlive hliveFresh) hcontrolss hl hcl hn hn'
  | .close (.control i), ⟨hn, hn'⟩, hl, hcl | .message i m false, ⟨hn, hn'⟩, hl, hcl =>
      exact hkeep _ _ hlives (nodup_erase hcontrols hcontrolsFresh) hl hcl hn hn'
  | .message i m true, ⟨hn, hn'⟩, hl, hcl | .frame c m ok, ⟨hn, hn'⟩, hl, hcl
  | .device c d ok, ⟨hn, hn'⟩, hl, hcl | .event c m ok, ⟨hn, hn'⟩, hl, hcl
  | .flush c ok, ⟨hn, hn'⟩, hl, hcl | .drain p ok, ⟨hn, hn'⟩, hl, hcl =>
      exact hkeep _ _ hlives hcontrolss hl hcl hn hn'

/-- A talk matters to the presence of its own peer only. -/
theorem Talk.Spec.present {t : Talk} {s s' : Server} (h : t.Spec s s') (hs : s.PeersOk)
    (p : Peer) : s'.Present p ↔ if t.peer = p then t.presence (s.Present p) else s.Present p := by
  have hlive := h.live
  have hcontrols := h.controlClients
  cases p with
  | client c =>
      show c ∈ s'.live ↔ _
      rw [hlive]
      cases t with
      | accept q =>
          cases q with
          | client d =>
              by_cases hd : d = c
              · simp [Talk.clientsAfter, Talk.peer, Talk.presence, hd]
              · simp [Talk.clientsAfter, Talk.peer, Server.Present, hd, Ne.symm hd]
          | control => simp [Talk.clientsAfter, Talk.peer, Server.Present]
      | close q =>
          cases q with
          | client d =>
              by_cases hd : d = c
              · simp [Talk.clientsAfter, Talk.peer, Talk.presence, hd, hs.liveNodup.mem_erase_iff]
              · simp [Talk.clientsAfter, Talk.peer, Server.Present, hd, Ne.symm hd,
                  hs.liveNodup.mem_erase_iff]
          | control => simp [Talk.clientsAfter, Talk.peer, Server.Present]
      | frame | device | event | flush =>
          simp [Talk.clientsAfter, Talk.presence, Server.Present]
      | message => simp [Talk.clientsAfter, Talk.peer, Server.Present]
      | drain => simp [Talk.clientsAfter, Talk.presence, Server.Present]
  | control i =>
      show i ∈ s'.controlClients ↔ _
      rw [hcontrols]
      have hleave : ∀ j, i ∈ s.controlClients.erase j ↔ if Peer.control j = .control i then False
          else s.Present (.control i) := by
        intro j
        by_cases hj : j = i
        · simp [hj, hs.controlsNodup.mem_erase_iff]
        · simp [Server.Present, hj, Ne.symm hj, hs.controlsNodup.mem_erase_iff]
      cases t with
      | accept q =>
          cases q with
          | client => simp [Talk.controlsAfter, Talk.peer, Server.Present]
          | control j =>
              by_cases hj : j = i
              · simp [Talk.controlsAfter, Talk.peer, Talk.presence, hj]
              · simp [Talk.controlsAfter, Talk.peer, Server.Present, hj, Ne.symm hj]
      | close q =>
          cases q with
          | client => simp [Talk.controlsAfter, Talk.peer, Server.Present]
          | control j => exact hleave j
      | message j m ok =>
          cases ok with
          | true => simp [Talk.controlsAfter, Talk.presence, Server.Present]
          | false => exact hleave j
      | frame | device | event | flush => simp [Talk.controlsAfter, Talk.peer, Server.Present]
      | drain => simp [Talk.controlsAfter, Talk.presence, Server.Present]

/-- **Who is there after a sequence of talks** is decided by the talks with that peer. -/
theorem Talks.present {k : Kernel} {ts : List Talk} {s s' : Server} (h : Talks k ts s s')
    (hsound : s.Sound) (hs : s.PeersOk) :
    s'.PeersOk ∧ ∀ p, s'.Present p ↔ (talksWith p ts).foldl Talk.presence (s.Present p) := by
  induction h with
  | refl => exact ⟨hs, fun _ => Iff.rfl⟩
  | @silent s s₁ s' ts hcalls _ ih =>
      have hpeers : s₁.PeersOk := by
        constructor
        · rw [hcalls.live]; exact hs.liveNodup
        · rw [hcalls.live, hcalls.nextClientId]; exact hs.liveFresh
        · rw [hcalls.controlClients]; exact hs.controlsNodup
        · rw [hcalls.controlClients, hcalls.nextControlId]; exact hs.controlsFresh
      have hpresent : ∀ p, s₁.Present p = s.Present p := by
        intro p
        cases p with
        | client c => show (c ∈ s₁.live) = _; rw [hcalls.live]; rfl
        | control i => show (i ∈ s₁.controlClients) = _; rw [hcalls.controlClients]; rfl
      obtain ⟨hok, hall⟩ := ih (hcalls.sound hsound) hpeers
      refine ⟨hok, fun p => ?_⟩
      rw [← hpresent p]
      exact hall p
  | @label s s₁ s' t ts ht _ ih =>
      have hspec := Talk.Does.spec ht hsound
      obtain ⟨hok, hall⟩ := ih (hspec.sound hsound) (hspec.peersOk hs)
      refine ⟨hok, fun p => ?_⟩
      rw [hall p, propext (hspec.present hs p)]
      by_cases hp : t.peer = p
      · simp [talksWith, hp]
      · simp [talksWith, hp]

/-- Identifiers of seat clients are given out in order. -/
theorem Talks.nextClientId {k : Kernel} {ts : List Talk} {s s' : Server} (h : Talks k ts s s')
    (hsound : s.Sound) : s.nextClientId ≤ s'.nextClientId
      ∧ ∀ c, .accept (.client c) ∈ ts → c < s'.nextClientId := by
  induction h with
  | refl => exact ⟨le_rfl, fun _ h => by cases h⟩
  | silent hcalls _ ih =>
      obtain ⟨hle, hmem⟩ := ih (hcalls.sound hsound)
      exact ⟨hcalls.nextClientId ▸ hle, hmem⟩
  | @label s s₁ s' t ts ht _ ih =>
      have hspec := Talk.Does.spec ht hsound
      obtain ⟨hle, hmem⟩ := ih (hspec.sound hsound)
      have hnumbers := hspec.numbers
      have hfirst : s.nextClientId ≤ s₁.nextClientId
          ∧ ∀ c, t = .accept (.client c) → c < s₁.nextClientId := by
        match t, hnumbers with
        | .accept (.client c), ⟨hc, hnext, _⟩ =>
            refine ⟨hnext ▸ hc ▸ Nat.le_succ _, fun c' hc' => ?_⟩
            cases hc'
            exact hnext ▸ Nat.lt_succ_self c
        | .accept (.control i), ⟨_, _, hnext⟩ | .close p, ⟨hnext, _⟩
        | .message i m ok, ⟨hnext, _⟩ | .frame c m ok, ⟨hnext, _⟩ | .device c d ok, ⟨hnext, _⟩
        | .event c m ok, ⟨hnext, _⟩ | .flush c ok, ⟨hnext, _⟩ | .drain p ok, ⟨hnext, _⟩ =>
            exact ⟨hnext.ge, fun _ h => by cases h⟩
      refine ⟨hfirst.1.trans hle, fun c hc => ?_⟩
      rcases List.mem_cons.mp hc with hc | hc
      · exact (hfirst.2 c hc.symm).trans_le hle
      · exact hmem c hc

/-- A client beyond the identifiers given out is not talked to. -/
theorem StepTalks.fresh {s : Server} {st : Step} {ts : List Talk} (h : StepTalks s st ts)
    (hwf : (s.view none).WF) {c next : ClientId} (hc : next ≤ c) (hle : s.nextClientId ≤ next)
    (haccept : ∀ c, .accept (.client c) ∈ ts → c < next) : talksWith (.client c) ts = [] := by
  have hdead : c ∉ s.live := fun hlive =>
    (hwf.fresh c hlive).not_ge (hle.trans hc)
  have htalks := h.clients c
  rw [ClientTalks, if_neg fun hx => hdead hx.2] at htalks
  rcases htalks with ⟨-, hlive⟩ | ⟨-, htalks⟩
  · by_contra hne
    exact hdead (hlive hne)
  · have hmem : .accept (.client c) ∈ talksWith (.client c) ts := by
      rcases htalks with htalks | htalks <;> simp [htalks]
    exact absurd hc (haccept c (List.mem_filter.mp hmem).1).not_ge

theorem kept_init (vtBound : Bool) : (serverInit vtBound).Kept where
  wf := wf_init vtBound
  sound := fun p => by cases p <;> exact Connection.sound_zero
  virgin := fun _ _ => ⟨rfl, rfl, rfl, rfl, rfl, rfl⟩
  peers := ⟨.nil, fun _ h => (List.not_mem_nil h).elim, .nil, fun _ h => (List.not_mem_nil h).elim⟩

theorem kept_of_talks {k : Kernel} {s s' : Server} {st : Step} {ts : List Talk} (h : s.Kept)
    (hwf : (s'.view none).WF) (htalk : Talks k ts s s') (hts : StepTalks s st ts) : s'.Kept := by
  have hspec := htalk.spec h.sound
  obtain ⟨hpeers, -⟩ := htalk.present h.sound h.peers
  obtain ⟨hle, haccept⟩ := htalk.nextClientId h.sound
  refine ⟨hwf, hspec.sound, fun c hc => ?_, hpeers⟩
  have heffects := hspec.effects (.client c)
  rw [hts.fresh h.wf hc hle haccept] at heffects
  rw [show s'.channel (.client c) = s.channel (.client c) from heffects]
  exact h.virgin c (hle.trans hc)

theorem kept_step {k : Kernel} {s : Server} (h : s.Kept) (st : Step) : (step k s st).Kept := by
  obtain ⟨ts, htalk, hts⟩ := step_dialogue k s h.wf st
  exact kept_of_talks h (h.wf.path (step_path k s h.wf st)) htalk hts

/-- **A step and a client**: the talks with it, what they do to its channel, and whether it is
there afterwards. -/
theorem step_client {k : Kernel} {s : Server} (h : s.Kept) (c : ClientId) (st : Step) :
    ∃ ts, ClientTalks s st c ts
      ∧ Effects ts (s.channel (.client c)) ((step k s st).channel (.client c))
      ∧ (c ∈ (step k s st).live ↔ ts.foldl Talk.presence (c ∈ s.live)) := by
  obtain ⟨ts, htalk, hts⟩ := step_dialogue k s h.wf st
  exact ⟨_, hts.clients c, (htalk.spec h.sound).effects (.client c),
    (htalk.present h.sound h.peers).2 (.client c)⟩

theorem nextClientId_step {k : Kernel} {s : Server} (h : s.Kept) (st : Step) :
    s.nextClientId ≤ (step k s st).nextClientId := by
  obtain ⟨ts, htalk, -⟩ := step_dialogue k s h.wf st
  exact (htalk.nextClientId h.sound).1

/-- A client that is gone does not come back. -/
theorem not_live_step {k : Kernel} {s : Server} (h : s.Kept) {c : ClientId}
    (hold : c < s.nextClientId) (hdead : c ∉ s.live) (st : Step) : c ∉ (step k s st).live := by
  obtain ⟨ts, hclient, -, hpresent⟩ := step_client (k := k) h c st
  rw [ClientTalks, if_neg fun hx => hdead hx.2] at hclient
  have hnil : ts = [] := by
    rcases hclient with ⟨-, hlive⟩ | ⟨heq, -⟩
    · by_contra hne
      exact hdead (hlive hne)
    · exact absurd heq hold.ne
  rw [hnil] at hpresent
  exact fun hlive => hdead (hpresent.mp hlive)

theorem kept_run (k : Kernel) (vtBound : Bool) (steps : List Step) :
    (run k vtBound steps).Kept :=
  Run.run_invariant (P := Server.Kept) (fun _ st h => kept_step h st) (kept_init vtBound) steps

end DdeSeatd
