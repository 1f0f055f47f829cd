import DdeSeatd.Conversation
import DdeSeatd.Libseat.Waiting
import DdeSeatd.Unsent

set_option autoImplicit false

/-! # A call does not wait in vain

A call of the library that waits for its response is waiting for something that will come, as long
as the connection is open at both ends: the daemon has bytes to read, or it has output that it will
be woken to send, or the response is on its way to the library (`waiting_progress`). There is no
state in which both sides wait for each other.

Seat events can be left behind in the daemon's ring (`disable_left_behind`), but a reply cannot, nor
what was put before it: `client_flush` sends all of it or asks to be woken (`Channel.RepliesOut`).
-/

namespace DdeSeatd

open Framer Libseat RingBuffer

/-! ## Replies are sent -/

/-- Everything up to the last reply was sent, or the event source asks for `EVENT_WRITABLE`. -/
def Channel.RepliesOut (ch : Channel) : Prop :=
  ch.mask &&& EVENT_WRITABLE ≠ 0
    ∨ ∃ told events, ch.frames = told ++ events ∧ replies events = []
      ∧ messageBytes told <+: sentBytes ch.sent

section

variable {ch ch' : Channel}

theorem Channel.Owes.sent_all (h : ch.Owes 0 []) (hempty : ch.connection.out.size = 0) :
    sentBytes ch.sent = messageBytes ch.frames := by
  have hstream := h.stream
  rwa [List.append_nil, List.eq_nil_of_length_eq_zero ((toList_length _).trans hempty),
    List.append_nil] at hstream

/-- Output that is waited for, all of it. -/
theorem Channel.Waited.repliesOut (h : ch.Waited) (howes : ch.Owes 0 []) : ch.RepliesOut := by
  rcases h with hempty | hmask
  · refine .inr ⟨ch.frames, [], (List.append_nil _).symm, rfl, ?_⟩
    rw [howes.sent_all hempty]
  · exact .inl hmask

/-- More is sent, and no reply is added. -/
theorem Channel.RepliesOut.grow (h : ch.RepliesOut) (hgrows : ch.Grows ch')
    (hmask : ch'.mask = ch.mask) (hreplies : replies ch'.frames = replies ch.frames) :
    ch'.RepliesOut := by
  rcases h with hwait | ⟨told, events, hframes, hevents, hsent⟩
  · left
    rw [hmask]
    exact hwait
  · obtain ⟨more, hmore⟩ := hgrows.frames
    obtain ⟨sent, hsent'⟩ := hgrows.sent
    have hnone : replies more = [] := by
      rw [← hmore, replies_append] at hreplies
      exact List.append_right_eq_self.mp hreplies
    refine .inr ⟨told, events ++ more, ?_, ?_, ?_⟩
    · rw [← hmore, hframes, List.append_assoc]
    · rw [replies_append, hevents, hnone, List.append_nil]
    · rw [← hsent', sentBytes_append]
      exact hsent.trans (List.prefix_append _ _)

end

/-- The replies to a client that is there are sent, or waited for. -/
def Server.RepliesOut (c : ClientId) (s : Server) : Prop :=
  c ∈ s.live → (s.channel (.client c)).RepliesOut

section

variable {k : Kernel} {s s' : Server} {c : ClientId}

/-- **Every step of the daemon sends the replies it puts**, or waits for the socket. -/
theorem repliesOut_step (hs : s.Kept) (hout : s.Outgoing c) (h : s.RepliesOut c) (st : Step) :
    (step k s st).RepliesOut c := by
  intro hlive'
  have howes : ((step k s st).channel (.client c)).Owes 0 [] :=
    ((outgoing_step hs hout st).resolve_right fun hgone => hgone.1 hlive').2
  have hgrows := grows_step (k := k) hs (.client c) st
  obtain ⟨ts, hclient, heffects, hpresent⟩ := step_client (k := k) hs c st
  have hhere := hpresent.mp hlive'
  generalize (step k s st).channel (.client c) = ch' at heffects howes hgrows ⊢
  unfold ClientTalks at hclient
  by_cases hown : st.client = some c ∧ c ∈ s.live
  · rw [if_pos hown] at hclient
    rw [eq_true hown.2] at hhere
    cases st with
    | request o r => exact (request_waited hclient heffects hhere).repliesOut howes
    | writable o =>
        rcases hclient with ⟨ok, rfl⟩ | rfl
        · obtain ⟨mid, ⟨mid', hmoves, hdrain⟩, hend⟩ := heffects
          obtain rfl : ch' = mid := hend
          cases ok with
          | true =>
              have hempty : ch'.connection.out.size = 0 := by
                rw [hdrain.2]
                exact hdrain.1
              exact Channel.Waited.repliesOut (.inl hempty) howes
          | false =>
              obtain rfl : ch' = mid' := hdrain
              exact (h hown.2).grow hgrows hmoves.mask (by rw [hmoves.frames])
        · exact hhere.elim
    | disconnect o =>
        obtain rfl : ts = [.close (.client c)] := hclient
        exact hhere.elim
    | _ => exact absurd hown.1 (by simp [Step.client])
  · rw [if_neg hown] at hclient
    rcases hclient with ⟨hhails, -⟩ | ⟨hnew, rfl | rfl⟩
    · have hreplies := hhails.replies heffects
      rw [hhails.presence] at hhere
      refine (h hhere).grow hgrows ?_ hreplies
      rcases hhails with rfl | ⟨x, m, ok, -, -, rfl⟩
      · rw [show ch' = s.channel (.client c) from heffects]
      · obtain ⟨mid, hevent, hend⟩ := heffects
        rw [show ch' = mid from hend]
        obtain ⟨_, _, hmoves, -, hmask⟩ := event_moves hevent
        exact hmask.trans hmoves.mask
    · -- nothing was said before the client came
      obtain ⟨mid, haccept, hend⟩ := heffects
      obtain ⟨-, -, -, hframes, -⟩ := hs.virgin c hnew.ge
      refine .inr ⟨[], [], ?_, rfl, List.nil_prefix⟩
      rw [show ch' = mid from hend, show mid = _ from haccept]
      exact hframes
    · exact hhere.elim

theorem Inputs.repliesOut (h : Inputs (.client c) s s') (hreplies : s.RepliesOut c) :
    s'.RepliesOut c := by
  obtain ⟨inp, hown⟩ := h.own
  unfold Server.RepliesOut
  rw [hown, h.live]
  exact hreplies

theorem Reading.repliesOut {ts : List Taken} (h : Reading k c ts s s') (hs : s.Kept)
    (hout : s.Outgoing c) (hreplies : s.RepliesOut c) : s'.RepliesOut c := by
  induction h with
  | refl s => exact hreplies
  | silent hin _ ih => exact ih (hin.kept hs) (hin.outgoing hout) (hin.repliesOut hreplies)
  | @label s s₁ s' t ts ht _ ih =>
      -- a request that is served, or the end of the client
      have hnext : ∀ st, s₁ = step k s st → s'.RepliesOut c := by
        rintro st rfl
        exact ih (kept_step hs st) (outgoing_step hs hout st) (repliesOut_step hs hout hreplies st)
      cases t with
      | call r ok => exact hnext _ ht.2.1
      | refuse => exact hnext _ ht.2

end

/-! ## Conversations -/

/-- What holds between the moves of a conversation, and what makes it go on. -/
structure Conversation.Live (c : ClientId) (stream : List UInt8) (l : Conversation) : Prop where
  inv : l.Inv c stream
  replies : l.feed.server.RepliesOut c
  stalls : ¬ l.session.Over → l.session.Stalls

section

variable {k : Kernel} {c : ClientId} {stream : List UInt8} {l : Conversation}

theorem Conversation.Inv.repliesOut_daemon (h : l.Inv c stream)
    (hreplies : l.feed.server.RepliesOut c) (m : FeedMove) :
    (l.feed.step k c m).server.RepliesOut c := by
  cases m with
  | readable answers =>
      by_cases hlive : c ∈ l.feed.server.live
      · obtain ⟨ts, hread, -⟩ := Feed.reading_readable (k := k) (h.feed hlive) answers
        exact hread.repliesOut h.kept h.outgoing hreplies
      · rw [show l.feed.step k c (.readable answers) = l.feed from if_pos (.inr hlive)]
        exact hreplies
  | other st =>
      by_cases hst : st.isInput c = true
      · rw [show l.feed.step k c (.other st) = l.feed from if_pos hst]
        exact hreplies
      · rw [show l.feed.step k c (.other st)
          = { l.feed with server := DdeSeatd.step k l.feed.server st } from if_neg hst]
        exact repliesOut_step h.kept h.outgoing hreplies st

theorem Conversation.Live.step (h : l.Live c stream) (m : ConversationMove) :
    ∃ stream', (l.step k c m).Live c stream' := by
  obtain ⟨stream', hinv⟩ := h.inv.step (k := k) m
  refine ⟨stream', hinv, ?_, ?_⟩
  · cases m with
    | daemon m => exact h.inv.repliesOut_daemon h.replies m
    | hangup => exact repliesOut_step h.inv.kept h.inv.outgoing h.replies _
    | library act env =>
        have hsame : (l.step k c (.library act env)).feed.server = l.feed.server := by
          simp only [Conversation.step]
          split_ifs <;> rfl
        rw [hsame]
        exact h.replies
  · cases m with
    | daemon m => exact h.stalls
    | hangup => exact h.stalls
    | library act env =>
        by_cases hgo : l.session.Over ∨ ¬ act.Typed
        · rw [show l.step k c (.library act env) = l from if_pos hgo]
          exact h.stalls
        · rw [show l.step k c (.library act env) = _ from if_neg hgo]
          have hopen := (not_or.mp hgo).1
          exact fun _ => (h.stalls hopen).step (h.inv.library hopen) _

end

theorem converse_live {k : Kernel} {vtBound : Bool} {steps : List Step} {connect : Step}
    (hlive : (run k vtBound steps).nextClientId ∈ (run k vtBound (steps ++ [connect])).live)
    (moves : List ConversationMove) :
    ∃ stream, (converse k vtBound steps connect moves).Live (run k vtBound steps).nextClientId
      stream := by
  have hinv := conversationInit_inv hlive
  refine Run.run_invariant (P := fun l : Conversation => ∃ stream, l.Live _ stream) ?_
    ⟨[], hinv, ?_, fun _ => ?_⟩ moves
  · rintro l m ⟨stream, h⟩
    exact h.step m
  · -- the daemon has not replied to anything
    obtain ⟨-, htold⟩ := hinv.told.resolve_right fun hgone => hgone.1 hlive
    refine fun _ => .inr ⟨[], _, (List.nil_append _).symm, ?_, List.nil_prefix⟩
    exact List.forall₂_nil_left_iff.mp htold
  · exact Session.stalls_of_not_waiting fun r hno => by cases hno

/-! ## A call that waits -/

/-- A whole stream of requests that the reference parser does not refuse. -/
theorem parse_requests_whole {rs : List Request} (h : ∀ r ∈ rs, r.Valid)
    (hgood : (parse requestFrame (rs.flatMap Request.bytes)).bad = false) :
    (parse requestFrame (rs.flatMap Request.bytes)).frames = rs := by
  induction rs with
  | nil => rw [List.flatMap_nil, parse_wait (by rfl)]
  | cons r rs ih =>
      rw [List.flatMap_cons] at hgood ⊢
      rcases requestFrame_bytes (h r List.mem_cons_self) (rs.flatMap Request.bytes) with
        hframe | hbad
      · rw [parse_frame requestFrame_lawful hframe, List.drop_left] at hgood ⊢
        exact congrArg (r :: ·) (ih (fun r' hr' => h r' (List.mem_cons_of_mem r hr')) hgood)
      · rw [parse_bad hbad] at hgood
        cases hgood

/-- Once the daemon has read everything, it has replied to every request the library has put. -/
theorem Conversation.Live.all_answered {c : ClientId} {stream : List UInt8} {l : Conversation}
    (h : l.Live c stream) (hopen : ¬ l.session.Over) {r : Request}
    (hwaits : l.session.control = .waiting r) (hlive : c ∈ l.feed.server.live)
    (hread : l.feed.unread = []) :
    (responsesIn (l.feed.server.channel (.client c)).frames).length = l.asked.length := by
  have hstalled := h.stalls hopen r hwaits
  obtain ⟨reqs, hvalid, hasked, -, ms, -, hears⟩ :=
    (h.inv.library hopen).upto (Bool.eq_false_iff.mpr (not_or.mp hopen).2)
  -- nothing is left in the ring of the library
  have hstream : stream = reqs.flatMap Request.bytes := by
    rw [h.inv.stream hopen, ← hears.put]
    unfold Backend.put
    rw [List.eq_nil_of_length_eq_zero ((toList_length _).trans hstalled.out), List.append_nil]
  have hfeed := h.inv.feed hlive
  have hagrees := hfeed.agrees.resolve_left fun hfailed => hfeed.gone hfailed hlive
  unfold Feed.Agrees at hagrees
  rw [if_pos hlive, hread] at hagrees
  obtain ⟨read, hreads, hparse⟩ := hagrees
  rw [List.append_nil, hstream] at hreads
  rw [← hreads] at hparse
  have hcalls : l.feed.calls.map Prod.fst = reqs := by
    have hwhole := parse_requests_whole hvalid (by rw [hparse])
    rwa [hparse] at hwhole
  obtain ⟨-, htold⟩ := h.inv.told.resolve_right fun hgone => hgone.1 hlive
  rw [hcalls] at htold
  rw [← (answers_responses htold).length_eq, hasked]

/-- The call that waits has not got its response. -/
theorem Conversation.Inv.answered_lt {c : ClientId} {stream : List UInt8} {l : Conversation}
    (h : l.Inv c stream) (hopen : ¬ l.session.Over) {r : Request}
    (hwaits : l.session.control = .waiting r) :
    (l.session.answered l.asked).length < l.asked.length := by
  obtain ⟨reqs, -, -, hstate⟩ := h.library hopen
  rw [hwaits] at hstate
  obtain ⟨-, done, hdone, -⟩ := hstate
  unfold Session.answered
  rw [hwaits, hdone]
  simp

/-- **A call does not wait in vain.** Whatever the daemon and the library have done: while a call
waits on a connection that the library has not closed, the daemon has closed it, or the daemon has
something to read, or it has something to send and asks to be woken when it can, or something that
it has sent was not read yet. -/
theorem waiting_progress (k : Kernel) (vtBound : Bool) (steps : List Step) (connect : Step)
    (moves : List ConversationMove)
    (hlive : (run k vtBound steps).nextClientId ∈ (run k vtBound (steps ++ [connect])).live)
    (hopen : ¬ (converse k vtBound steps connect moves).session.Over) (r : Request)
    (hwaits : (converse k vtBound steps connect moves).session.control = .waiting r) :
    let c := (run k vtBound steps).nextClientId
    let l := converse k vtBound steps connect moves
    let ch := l.feed.server.channel (.client c)
    c ∉ l.feed.server.live ∨ l.feed.unread ≠ []
      ∨ (0 < ch.connection.out.size ∧ ch.mask &&& EVENT_WRITABLE ≠ 0)
      ∨ l.session.backend.input.length < (sentBytes ch.sent).length := by
  intro c l ch
  obtain ⟨stream, h⟩ := converse_live hlive moves
  by_contra hstuck
  obtain ⟨hhere, hread, hwritable, harrived⟩ :
      c ∈ l.feed.server.live ∧ l.feed.unread = []
        ∧ (0 < ch.connection.out.size → ch.mask &&& EVENT_WRITABLE = 0)
        ∧ (sentBytes ch.sent).length ≤ l.session.backend.input.length := by
    simpa only [not_or, not_not, not_and, not_lt] using hstuck
  have hall := h.all_answered hopen hwaits hhere hread
  have hstalled := h.stalls hopen r hwaits
  have howes := (h.inv.outgoing.resolve_right fun hgone => hgone.1 hhere).2
  obtain ⟨reqs, -, -, -, ms, hms, hears⟩ :=
    (h.inv.library hopen).upto (Bool.eq_false_iff.mpr (not_or.mp hopen).2)
  have hinput := hears.stream.eq_of_length_le harrived
  -- the replies are among what was sent
  obtain ⟨told, events, hframes, hevents, hsent⟩ : ∃ told events, ch.frames = told ++ events
      ∧ replies events = [] ∧ messageBytes told <+: sentBytes ch.sent := by
    rcases h.replies hhere with hmask | hout
    · have hempty : ch.connection.out.size = 0 := by
        by_contra hpos
        exact hmask (hwritable (Nat.pos_of_ne_zero hpos))
      refine ⟨ch.frames, [], (List.append_nil _).symm, rfl, ?_⟩
      rw [howes.sent_all hempty]
    · exact hout
  have hresponses : responsesIn ch.frames = responsesIn told := by
    rw [hframes, responsesIn_append, ← responsesIn_replies events, hevents, responsesIn_nil,
      List.append_nil]
  have hfew : (responsesIn ms).length < (responsesIn told).length := by
    rw [hms, ← hresponses, hall]
    exact h.inv.answered_lt hopen hwaits
  -- so one that was not taken comes next in the library's ring
  obtain ⟨m, rest, rfl⟩ : ∃ m rest, told = ms ++ m :: rest := by
    rcases List.prefix_or_prefix_of_prefix hears.begun (hframes ▸ List.prefix_append told events)
      with ⟨_ | ⟨m, rest⟩, rfl⟩ | hmore
    · rw [List.append_nil] at hfew
      exact absurd hfew (Nat.lt_irrefl _)
    · exact ⟨m, rest, rfl⟩
    · exact absurd (hmore.filter _).length_le (Nat.not_le_of_lt hfew)
  have hshort : m.Short := howes.carries.short m (by rw [hframes]; simp)
  have hring : messageBytes (m :: rest) <+: l.session.backend.connection.inp.toList := by
    rw [← hinput, hears.bytes, messageBytes_append] at hsent
    exact (List.prefix_append_right_inj _).mp hsent
  obtain ⟨bytes, hbytes⟩ := (List.prefix_append m.bytes (messageBytes rest)).trans hring
  exact hstalled.ring m bytes hshort hbytes.symm

/-- The daemon has read a part of the request. -/
theorem waiting_progress_of_part :
    let l := converse (.obliging 1) true [] (.connect 100)
      [.library (.call .openSeat) (.ready []), .daemon (.readable [.bytes 3])]
    l.session.control = .waiting .openSeat
      ∧ (0 ∉ l.feed.server.live ∨ l.feed.unread ≠ []
        ∨ (0 < (l.feed.server.channel (.client 0)).connection.out.size
          ∧ (l.feed.server.channel (.client 0)).mask &&& EVENT_WRITABLE ≠ 0)
        ∨ l.session.backend.input.length
          < (sentBytes (l.feed.server.channel (.client 0)).sent).length) := by
  intro l
  have hwaits : l.session.control = .waiting .openSeat := by decide +kernel
  exact ⟨hwaits, waiting_progress (.obliging 1) true [] (.connect 100) _ (by decide +kernel)
    (by decide +kernel) .openSeat hwaits⟩

end DdeSeatd
