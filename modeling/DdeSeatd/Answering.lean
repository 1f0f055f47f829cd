import DdeSeatd.Framing
import DdeSeatd.Outgoing

set_option autoImplicit false

/-! # What the daemon has answered

The frames that the daemon puts on the connection of a client are seat events and replies. The
replies answer the requests of the client in the order in which they were handled, one each
(`Server.Told`). Only a client that was destroyed may have heard less: its last request has no
reply, or the beginning of one, which nothing follows.
-/

namespace DdeSeatd

open RingBuffer

/-! ## Replies -/

/-- The frames that are not seat events. -/
def replies (ms : List ServerMsg) : List ServerMsg := ms.filter fun m => !m.isSeatEvent

@[simp] theorem replies_nil : replies [] = [] := rfl

@[simp] theorem replies_append (ms ms' : List ServerMsg) :
    replies (ms ++ ms') = replies ms ++ replies ms' := List.filter_append ..

theorem replies_event {m : ServerMsg} (h : m.isSeatEvent = true) : replies [m] = [] := by
  simp [replies, h]

theorem Answers.replies {r : Request} {m : ServerMsg} (h : Answers r m) :
    replies [m] = [m] := by
  cases m <;> first | rfl | (cases r <;> cases h)

/-- The beginning of a reply to `r` that was not put to its end; a bare header is put at once. -/
def BeginsReply (r : Request) (part : List UInt8) : Prop :=
  ∃ m, Answers r m ∧ part <+: m.bytes ∧ part ≠ m.bytes ∧ (m.payload = [] → part = [])

/-- What a client has heard that was destroyed: replies to its first requests, and at most the
beginning of the next one. -/
def Channel.Left (asked : List Request) (ch : Channel) : Prop :=
  ∃ answered part, answered <+: asked ∧ List.Forall₂ Answers answered (replies ch.frames)
    ∧ sentBytes ch.sent <+: messageBytes ch.frames ++ part
    ∧ (part = [] ∨ ∃ r, answered ++ [r] <+: asked ∧ BeginsReply r part)

/-- The replies on the channel are those to the requests `asked`. -/
def Channel.Tells (here : Prop) (asked : List Request) (ch : Channel) : Prop :=
  here ∧ List.Forall₂ Answers asked (replies ch.frames) ∨ ¬ here ∧ ch.Left asked

section

variable {ch ch' : Channel} {n : Nat} {part data : List UInt8} {asked : List Request} {c : ClientId}
  {r : Request}

theorem Channel.Moves.frames (h : ch.Moves data ch') : ch'.frames = ch.frames := by
  obtain ⟨_, -, heq⟩ := h
  rw [heq]

theorem Channel.Owes.sent_prefix_frames (h : ch.Owes n part) :
    sentBytes ch.sent <+: messageBytes ch.frames ++ part := by
  rw [← h.stream]
  exact List.prefix_append _ _

/-! ## Talks -/

theorem Channel.said_frames (m : ServerMsg) : (ch.said m).frames = ch.frames ++ [m] := rfl

/-- Seat events are not replies. -/
theorem Hails.frames {P : ClientId → Prop} {ts : List Talk} (h : Hails P ts)
    (heffects : Effects ts ch ch') :
    ∃ evs, ch'.frames = ch.frames ++ evs ∧ replies evs = [] := by
  rcases h with rfl | ⟨x, m, ok, -, hm, rfl⟩
  · rw [show ch' = ch from heffects]
    exact ⟨[], (List.append_nil _).symm, rfl⟩
  · obtain ⟨mid, hevent, hend⟩ := heffects
    rw [show ch' = mid from hend]
    cases ok with
    | true =>
        obtain ⟨mid', hmoves, -, rfl⟩ := hevent
        refine ⟨[m], ?_, replies_event hm⟩
        rw [Channel.said_frames, hmoves.frames]
    | false =>
        rcases hevent with ⟨data, -, -, -, hmoves⟩ | ⟨mid', hmoves, -, rfl⟩
        · exact ⟨[], by rw [hmoves.frames, List.append_nil], rfl⟩
        · refine ⟨[m], ?_, replies_event hm⟩
          show (mid'.said m).frames = _
          rw [Channel.said_frames, hmoves.frames]

theorem Hails.replies {P : ClientId → Prop} {ts : List Talk} (h : Hails P ts)
    (heffects : Effects ts ch ch') : replies ch'.frames = replies ch.frames := by
  obtain ⟨evs, hframes, hevs⟩ := h.frames heffects
  rw [hframes, replies_append, hevs, List.append_nil]

/-- A reply that is put. -/
theorem Replies.frames {t : Talk} (h : Replies c r true t)
    (heffect : t.Effect ch ch') : ∃ m, Answers r m ∧ ch'.frames = ch.frames ++ [m] := by
  cases h with
  | @frame m hanswers hm =>
      obtain ⟨mid, hmoves, -, rfl⟩ := heffect
      exact ⟨m, hanswers, by rw [Channel.said_frames, hmoves.frames]⟩
  | device hr d =>
      obtain ⟨fd, conn, -, mid, hmoves, -, rfl⟩ := heffect
      refine ⟨.deviceOpened d.deviceId, ?_, by rw [Channel.said_frames, hmoves.frames]⟩
      rw [hr]
      trivial

theorem Replies.replies {t : Talk} (h : Replies c r true t) (heffect : t.Effect ch ch')
    (htold : List.Forall₂ Answers asked (replies ch.frames)) :
    List.Forall₂ Answers (asked ++ [r]) (DdeSeatd.replies ch'.frames) := by
  obtain ⟨m, hanswers, hframes⟩ := h.frames heffect
  rw [hframes, replies_append, hanswers.replies]
  exact List.rel_append htold (.cons hanswers .nil)

/-- A reply that is not put to its end. -/
theorem Replies.frames_failed {t : Talk} (h : Replies c r false t) (heffect : t.Effect ch ch')
    (hch : ch.Owes 0 []) :
    ∃ n part, ch'.Owes n part ∧ ch'.frames = ch.frames ∧ BeginsReply r part := by
  cases h with
  | @frame m hanswers hm =>
      obtain ⟨data, hpre, hne, hbare, hmoves⟩ := heffect
      refine ⟨0, data, hch.moves (Nat.zero_le _) hmoves ⟨m, hanswers.short, hpre, hne⟩,
        hmoves.frames, m, hanswers, hpre, hne, hbare⟩
  | device hr d =>
      obtain ⟨fd, conn, hput, data, hpre, hne, hbare, hmoves⟩ := heffect
      refine ⟨1, data, (hch.queue hput).moves le_rfl hmoves
        ⟨_, short_deviceOpened _, hpre, hne⟩, hmoves.frames, _, ?_, hpre, hne, hbare⟩
      rw [hr]
      trivial

end

section

variable {ch ch' : Channel} {n : Nat} {part : List UInt8} {asked : List Request}

/-- A client that is destroyed. -/
theorem Channel.Owes.left {c : ClientId} {answered : List Request} (h : ch.Owes n part)
    (hanswered : answered <+: asked) (htold : List.Forall₂ Answers answered (replies ch.frames))
    (hpart : part = [] ∨ ∃ r, answered ++ [r] <+: asked ∧ BeginsReply r part)
    (heffects : Effects [.close (.client c)] ch ch') : ch'.Left asked := by
  obtain ⟨mid, hclose, hend⟩ := heffects
  rw [show ch' = mid from hend, show mid = ch.shut from hclose]
  exact ⟨answered, part, hanswered, htold, h.sent_prefix_frames, hpart⟩

/-- **A request gets one reply**, or the client is destroyed. -/
theorem RequestTalks.tells {c : ClientId} {r : Request} {ts : List Talk}
    (h : RequestTalks c r ts) (heffects : Effects ts ch ch') (hch : ch.Owes 0 [])
    (htold : List.Forall₂ Answers asked (replies ch.frames)) :
    ch'.Tells (ts.foldl Talk.presence True) (asked ++ [r]) := by
  cases h with
  | @served before after t hbefore hafter hreply =>
      obtain ⟨ch₃, heffects, ch₄, hflush, hend⟩ := Effects.append.mp heffects
      obtain ⟨ch₁, hfirst, ch₂, ht, hlast⟩ := Effects.append.mp heffects
      have hreplies : List.Forall₂ Answers (asked ++ [r]) (replies ch₃.frames) := by
        rw [hafter.replies hlast]
        exact hreply.replies ht (by rw [hbefore.replies hfirst]; exact htold)
      refine .inl ⟨?_, ?_⟩
      · simp only [List.foldl_append, List.foldl_cons, List.foldl_nil, hbefore.presence,
          hreply.presence, hafter.presence]
        trivial
      · obtain ⟨mid, hmoves, hserved⟩ := hflush
        rw [show ch' = ch₄ from hend]
        have hframes : ch₄.frames = mid.frames := by
          rcases hserved with ⟨-, rfl⟩ | rfl <;> rfl
        rw [hframes, hmoves.frames]
        exact hreplies
  | @unsent before after t hbefore hafter hreply =>
      obtain ⟨ch₃, heffects, ch₄, hflush, hclose⟩ := Effects.append.mp heffects
      obtain ⟨ch₁, hfirst, ch₂, ht, hlast⟩ := Effects.append.mp heffects
      have hreplies : List.Forall₂ Answers (asked ++ [r]) (replies ch₃.frames) := by
        rw [hafter.replies hlast]
        exact hreply.replies ht (by rw [hbefore.replies hfirst]; exact htold)
      have howes := (((hch.hails hbefore hfirst).reply hreply ht).hails hafter hlast).flush hflush
      obtain ⟨mid, hmoves, rfl⟩ := hflush
      refine .inr ⟨?_, howes.left List.prefix_rfl ?_ (.inl rfl) hclose⟩
      · rw [List.foldl_append]
        exact not_false
      · rw [hmoves.frames]
        exact hreplies
  | @failed before reply hbefore hreply =>
      obtain ⟨ch₂, heffects, hclose⟩ := Effects.append.mp heffects
      obtain ⟨ch₁, hfirst, hreplied⟩ := Effects.append.mp heffects
      have htold' : List.Forall₂ Answers asked (replies ch₁.frames) := by
        rw [hbefore.replies hfirst]
        exact htold
      have howes := hch.hails hbefore hfirst
      refine .inr ⟨by rw [List.foldl_append]; exact not_false, ?_⟩
      rcases hreply with rfl | ⟨t, rfl, ht⟩
      · rw [show ch₂ = ch₁ from hreplied] at hclose
        exact howes.left (List.prefix_append _ _) htold' (.inl rfl) hclose
      · obtain ⟨mid, heffect, hend⟩ := hreplied
        rw [show ch₂ = mid from hend] at hclose
        obtain ⟨n, part, howes', hframes, hbegins⟩ := ht.frames_failed heffect howes
        refine howes'.left (List.prefix_append _ _) ?_ (.inr ⟨r, List.prefix_rfl, hbegins⟩) hclose
        rw [hframes]
        exact htold'

end

/-! ## Steps -/

/-- The daemon has told the client what it told it in reply to the requests `asked`. -/
def Server.Told (c : ClientId) (asked : List Request) (s : Server) : Prop :=
  (s.channel (.client c)).Tells (c ∈ s.live) asked

section

variable {k : Kernel} {s : Server} {c : ClientId} {asked : List Request}

/-- The request of the client. -/
theorem told_request (hs : s.Kept) (hout : s.Outgoing c) (h : s.Told c asked) (hlive : c ∈ s.live)
    (r : Request) : (step k s (.request c r)).Told c (asked ++ [r]) := by
  obtain ⟨ts, hclient, heffects, hpresent⟩ := step_client (k := k) hs c (.request c r)
  rw [ClientTalks, if_pos ⟨rfl, hlive⟩] at hclient
  have howes := (hout.resolve_right fun hgone => hgone.1 hlive).2
  have htold := (h.resolve_right fun hgone => hgone.1 hlive).2
  unfold Server.Told
  rw [hpresent, eq_true hlive]
  exact RequestTalks.tells hclient heffects howes htold

/-- Any other step. -/
theorem told_step (hs : s.Kept) (hout : s.Outgoing c) (hold : c < s.nextClientId)
    (h : s.Told c asked) {st : Step} (hst : ∀ r, st ≠ .request c r) :
    (step k s st).Told c asked := by
  obtain ⟨ts, hclient, heffects, hpresent⟩ := step_client (k := k) hs c st
  unfold Server.Told
  rw [hpresent]
  generalize (step k s st).channel (.client c) = ch' at heffects ⊢
  unfold ClientTalks at hclient
  by_cases hown : st.client = some c ∧ c ∈ s.live
  · rw [if_pos hown] at hclient
    have hch := (hout.resolve_right fun hgone => hgone.1 hown.2).2
    have htold := (h.resolve_right fun hgone => hgone.1 hown.2).2
    rw [eq_true hown.2]
    cases st with
    | request o r =>
        obtain rfl : o = c := Option.some.inj hown.1
        exact absurd rfl (hst r)
    | writable o =>
        rcases hclient with ⟨ok, rfl⟩ | rfl
        · obtain ⟨mid, ⟨mid', hmoves, hdrain⟩, hend⟩ := heffects
          rw [show ch' = mid from hend]
          have hframes : mid.frames = mid'.frames := by
            cases ok with
            | true => rw [hdrain.2]
            | false => rw [hdrain]
          refine .inl ⟨trivial, ?_⟩
          rw [hframes, hmoves.frames]
          exact htold
        · obtain ⟨mid, hdrain, hclose⟩ := heffects
          have howes := hch.drain hdrain
          obtain ⟨mid', hmoves, rfl⟩ := hdrain
          refine .inr ⟨not_false, howes.left List.prefix_rfl ?_ (.inl rfl) hclose⟩
          rw [hmoves.frames]
          exact htold
    | disconnect o =>
        obtain rfl : ts = [.close (.client c)] := hclient
        exact .inr ⟨not_false, hch.left List.prefix_rfl htold (.inl rfl) heffects⟩
    | _ => exact absurd hown.1 (by simp [Step.client])
  · rw [if_neg hown] at hclient
    rcases hclient with ⟨hhails, hlive⟩ | ⟨hnew, -⟩
    · rw [hhails.presence]
      refine h.imp (fun hh => ⟨hh.1, ?_⟩) fun hh => ⟨hh.1, ?_⟩
      · rw [hhails.replies heffects]
        exact hh.2
      · have hnil : ts = [] := by
          by_contra hne
          exact hh.1 (hlive hne)
        subst hnil
        rw [show ch' = s.channel (.client c) from heffects]
        exact hh.2
    · exact absurd hnew hold.ne

/-- A client that has just come has heard nothing. -/
theorem told_accepted (hs : s.Kept) {st : Step} (hlive : s.nextClientId ∈ (step k s st).live) :
    (step k s st).Told s.nextClientId [] := by
  set c := s.nextClientId with hc
  have hnew : c ∉ s.live := fun hold => (hs.peers.liveFresh c hold).ne hc
  obtain ⟨ts, hclient, heffects, hpresent⟩ := step_client (k := k) hs c st
  rw [hpresent] at hlive
  unfold Server.Told
  rw [hpresent]
  generalize (step k s st).channel (.client c) = ch' at heffects ⊢
  unfold ClientTalks at hclient
  rw [if_neg fun hown => hnew hown.2] at hclient
  rcases hclient with ⟨hhails, -⟩ | ⟨-, rfl | rfl⟩
  · rw [hhails.presence] at hlive
    exact absurd hlive hnew
  · obtain ⟨mid, haccept, hend⟩ := heffects
    obtain ⟨-, -, -, hframes, -⟩ := hs.virgin c le_rfl
    refine .inl ⟨trivial, ?_⟩
    rw [show ch' = mid from hend, show mid = _ from haccept]
    show List.Forall₂ Answers [] (replies (s.channel (.client c)).frames)
    rw [hframes]
    exact .nil
  · exact hlive.elim

end

/-! ## Reading -/

/-- The requests taken off a connection. -/
def requestsTaken (ts : List Taken) : List Request :=
  ts.filterMap fun t => match t with
    | .call r _ => some r
    | .refuse => none

section

variable {k : Kernel} {s s' : Server} {c : ClientId} {asked : List Request}

/-- Input changes nothing that was said. -/
theorem Inputs.told (h : Inputs (.client c) s s') (htold : s.Told c asked) : s'.Told c asked := by
  obtain ⟨inp, hown⟩ := h.own
  unfold Server.Told
  rw [hown, h.live]
  exact htold

theorem Inputs.outgoing (h : Inputs (.client c) s s') (hout : s.Outgoing c) : s'.Outgoing c := by
  obtain ⟨inp, hown⟩ := h.own
  unfold Server.Outgoing
  rw [hown, h.live]
  refine hout.imp (fun hh => ⟨hh.1, ?_⟩) fun hh => ⟨hh.1, hh.2.carries, hh.2.closed, hh.2.devices⟩
  exact ⟨hh.2.carries, hh.2.stream, hh.2.fds, hh.2.count, hh.2.closed, hh.2.fdsIn, hh.2.devices,
    hh.2.sound.out, hh.2.sound.flush, hh.2.sound.fdsOut⟩

/-- **The requests that are taken off the connection are answered** in their order. -/
theorem Reading.told {ts : List Taken} (h : Reading k c ts s s') (hs : s.Kept)
    (hout : s.Outgoing c) (htold : s.Told c asked) :
    s'.Outgoing c ∧ s'.Told c (asked ++ requestsTaken ts) := by
  induction h generalizing asked with
  | refl s =>
      rw [show requestsTaken [] = [] from rfl, List.append_nil]
      exact ⟨hout, htold⟩
  | silent hin _ ih => exact ih (hin.kept hs) (hin.outgoing hout) (hin.told htold)
  | @label s s₁ s' t ts ht _ ih =>
      cases t with
      | call r ok =>
          obtain ⟨hlive, rfl, -⟩ := ht
          have hreq : requestsTaken (.call r ok :: ts) = [r] ++ requestsTaken ts := rfl
          rw [hreq, ← List.append_assoc]
          exact ih (kept_step hs _) (outgoing_step hs hout _) (told_request hs hout htold hlive r)
      | refuse =>
          obtain ⟨hlive, rfl⟩ := ht
          have hreq : requestsTaken (.refuse :: ts) = requestsTaken ts := rfl
          rw [hreq]
          exact ih (kept_step hs _) (outgoing_step hs hout _)
            (told_step hs hout (hs.peers.liveFresh c hlive) htold (by simp))

theorem requestsTaken_takes (h : Handled) : requestsTaken h.takes = h.calls.map Prod.fst := by
  unfold requestsTaken Handled.takes
  rw [List.filterMap_map]
  exact List.filterMap_eq_map_iff_forall_eq_some.mpr fun _ _ => rfl

theorem requestsTaken_refuse (ts : List Taken) :
    requestsTaken (ts ++ [.refuse]) = requestsTaken ts := by
  simp [requestsTaken]

/-- Reading only adds to what was said. -/
theorem Reading.grows {ts : List Taken} (h : Reading k c ts s s') (hs : s.Kept) :
    (s.channel (.client c)).Grows (s'.channel (.client c)) := by
  induction h with
  | refl s => exact .refl _
  | @silent s s₁ s' ts hin _ ih =>
      obtain ⟨inp, hown⟩ := hin.own
      have hrest := ih (hin.kept hs)
      rw [hown] at hrest
      exact ⟨hrest.sent, hrest.frames, hrest.queued, hrest.devices⟩
  | @label s s₁ s' t ts ht _ ih =>
      cases t with
      | call r ok =>
          obtain ⟨-, rfl, -⟩ := ht
          exact (grows_step hs _ _).trans (ih (kept_step hs _))
      | refuse =>
          obtain ⟨-, rfl⟩ := ht
          exact (grows_step hs _ _).trans (ih (kept_step hs _))

/-- **A callback of the client's event source** takes requests off the connection, and serves
them. -/
theorem Feed.reading_readable {stream : List UInt8} {f : Feed} (h : f.Inv c stream)
    (answers : List Delivery) :
    let f' := f.step k c (.readable answers)
    ∃ ts, Reading k c ts f.server f'.server
      ∧ f'.calls.map Prod.fst = f.calls.map Prod.fst ++ requestsTaken ts := by
  intro f'
  by_cases hgo : f.unread = [] ∨ c ∉ f.server.live
  · rw [show f' = f from if_pos hgo]
    exact ⟨[], .refl _, (List.append_nil _).symm⟩
  have hstep : f' = _ := if_neg hgo
  obtain ⟨hunread, hlive⟩ := not_or.mp hgo
  rw [not_not] at hlive
  rw [hstep, clientHandleConnection_readable]
  have hlive₁ : ∀ {s₁ : Server}, Inputs (.client c) f.server s₁ → c ∈ s₁.live :=
    fun hin => hin.live ▸ hlive
  rcases clientHandleReadable_cases (k := k) (h.ring hlive) hunread answers with
    ⟨s₁, hin, -, -, hres⟩ | ⟨s₁, bytes, turns, hin, -, harr, hring, hturns, hres, -⟩
  · -- the ring is full
    rw [hres]
    have hdisconnect := step_disconnect (k := k) (hlive₁ hin)
    refine ⟨[.refuse], .silent hin (.label ⟨hlive₁ hin, hdisconnect.symm⟩ (.refl _)), ?_⟩
    rw [List.append_nil]
    exact (List.append_nil _).symm
  · rw [hres]
    have hlen : (s₁.clients c).connection.inp.size = (arrived s₁ c).length := (toList_length _).symm
    have hpar : Parses k c s₁ (clientHandleFrames k c turns s₁) :=
      clientHandleFrames_parses turns (hin.kept h.kept) (hlive₁ hin) (hlen ▸ hring) (hlen ▸ hturns)
    rcases hpar.reading with hread | ⟨-, hread⟩
    · refine ⟨_, .silent hin hread, ?_⟩
      rw [requestsTaken_takes, List.map_append]
    · refine ⟨_, .silent hin hread, ?_⟩
      rw [requestsTaken_refuse, requestsTaken_takes, List.map_append]

end

end DdeSeatd
