import DdeSeatd.Answering
import DdeSeatd.Lib.ListRel
import DdeSeatd.Libseat.Calls

set_option autoImplicit false

/-! # Every request gets its own response

The daemon and one library, each with all that it does, and between them a socket that keeps the
bytes in their order and cuts them as it likes. The daemon reads the connection when it likes and
takes any other steps in between; the library makes its moves. What one has sent is what the other
reads.

The daemon answers the requests it reads in their order (`Answering`), and it reads those that the
library has put (`RequestStream`). So the responses the library takes off the connection are those
to the requests of its calls, one each, in their order, and the library never finds anything but
what it expects (`own_response`).

The socket does what a socket does: `poll` reports that there is something to read only if
`recvmsg` does not then say that there is nothing, and `poll` is interrupted but does not fail.
-/

namespace DdeSeatd

open Framer Libseat RingBuffer

/-! ## The two ends -/

/-- What `poll` says about the connection. -/
inductive PollChoice where
  | again
  | interrupted
  | timeout
  | hangup (readable : Bool)
  | readable
  deriving DecidableEq, Repr

/-- What the environment chooses for one move of the library. Without choices for `recvmsg`, the
read meets the end of the stream. -/
structure Environment where
  sends : Nat → List SendResult
  calloc : Nat → Bool
  poll : PollChoice
  recv : Option (List RecvChoice)

/-- The answers of `recvmsg`: the next bytes the daemon has sent. -/
def Environment.recvAnswers (env : Environment) (ch : Channel) (b : Backend) : List RecvResult :=
  match env.recv with
  | some choices => choices.map (recvAnswer (CONNECTION_BUFFER_SIZE - connectionPending b.connection)
      ((wireOf ch.sent).drop b.input.length))
  | none => [.data [] []]

/-- The kernel during one move of the library. -/
def Environment.answers (env : Environment) (ch : Channel) (b : Backend) : Libseat.Answers where
  sends := env.sends
  calloc := env.calloc
  recv := env.recvAnswers ch b
  poll := match env.poll with
    | .again => .fail EAGAIN
    | .interrupted => .fail EINTR
    | .timeout => .ready false false
    | .hangup readable => .ready true readable
    | .readable => .ready false (recvmsgLoop (env.recvAnswers ch b) ≠ .fail EAGAIN)

/-- What the library does next. -/
inductive LibraryMove where
  | call (r : Request)
  | dispatch (timeout : Int)
  | wake
  | execute
  | callbackReturn
  deriving DecidableEq, Repr

def LibraryMove.move (a : Libseat.Answers) : LibraryMove → Libseat.Move
  | .call r => .call r a
  | .dispatch timeout => .dispatch timeout a
  | .wake => .wake a
  | .execute => .execute a
  | .callbackReturn => .callbackReturn a

/-- The arguments are of the types that C gives them. -/
def LibraryMove.Typed : LibraryMove → Prop
  | .call r => r.Typed
  | .dispatch _ | .wake | .execute | .callbackReturn => True

instance LibraryMove.typedDecidable : (act : LibraryMove) → Decidable act.Typed
  | .call r => inferInstanceAs (Decidable r.Typed)
  | .dispatch _ | .wake | .execute | .callbackReturn => inferInstanceAs (Decidable True)

/-- The daemon with the bytes it has not read, the library, and the requests that the library's
calls have put. -/
structure Conversation where
  feed : Feed
  session : Session
  asked : List Request

inductive ConversationMove where
  | daemon (m : FeedMove)
  /-- The daemon sees the connection hung up. -/
  | hangup
  | library (act : LibraryMove) (env : Environment)

/-- The library has closed the connection. -/
def Libseat.Session.Over (s : Session) : Prop := s.Ended ∨ s.backend.error = true

instance Libseat.Session.overDecidable (s : Session) : Decidable s.Over :=
  inferInstanceAs (Decidable ((s.control = .closed ∧ s.result ≠ none) ∨ s.backend.error = true))

/-- One move. What the library does once it has closed the connection is not followed. -/
def Conversation.step (k : Kernel) (c : ClientId) (l : Conversation) :
    ConversationMove → Conversation
  | .daemon m => { l with feed := l.feed.step k c m }
  | .hangup => { l with feed := { l.feed with
      server := DdeSeatd.step k l.feed.server (.disconnect c) } }
  | .library act env =>
      if l.session.Over ∨ ¬ act.Typed then l
      else
        let a := env.answers (l.feed.server.channel (.client c)) l.session.backend
        let session := l.session.step (act.move a)
        { feed := { l.feed with
            unread := l.feed.unread
              ++ (sentBytes session.backend.sent).drop (sentBytes l.session.backend.sent).length }
          session := session
          asked := l.asked ++ l.session.asks (act.move a) }

/-- The client has just connected. -/
def conversationInit (k : Kernel) (vtBound : Bool) (steps : List Step) (connect : Step) :
    Conversation :=
  ⟨⟨run k vtBound (steps ++ [connect]), [], []⟩, Session.init, []⟩

def converse (k : Kernel) (vtBound : Bool) (steps : List Step) (connect : Step)
    (moves : List ConversationMove) : Conversation :=
  Run.run (Conversation.step k (run k vtBound steps).nextClientId)
    (conversationInit k vtBound steps connect) moves

/-! ## The socket -/

section

variable {env : Environment} {ch : Channel} {b : Backend}

theorem Environment.responds (env : Environment) (ch : Channel) (b : Backend) :
    (env.answers ch b).Responds := by
  unfold Libseat.Answers.Responds Environment.answers
  cases env.poll with
  | again => exact ⟨fun e he => .inl (PollResult.fail.inj he).symm, fun hno => (by cases hno)⟩
  | interrupted => exact ⟨fun e he => .inr (PollResult.fail.inj he).symm, fun hno => (by cases hno)⟩
  | timeout | hangup readable => exact ⟨fun e hno => (by cases hno), fun hno => (by cases hno)⟩
  | readable =>
      refine ⟨fun e hno => (by cases hno), fun hready => ?_⟩
      exact of_decide_eq_true (PollResult.ready.inj hready).2

theorem Environment.delivers (hle : b.input.length ≤ (sentBytes ch.sent).length) :
    (env.answers ch b).Delivers ch b := by
  unfold Libseat.Answers.Delivers Environment.answers Environment.recvAnswers
  cases env.recv with
  | none => exact .inr ⟨0, Nat.zero_le _, hle, rfl⟩
  | some choices =>
      dsimp only
      set wire := (wireOf ch.sent).drop b.input.length with hwire
      have hlen : wire.length = (sentBytes ch.sent).length - b.input.length := by
        rw [hwire, List.length_drop, wireOf_length]
      rcases recvmsgLoop_wire (CONNECTION_BUFFER_SIZE - connectionPending b.connection) wire choices
        with ⟨e, hrecv⟩ | ⟨n, -, hrecv⟩
      · exact .inl ⟨e, hrecv⟩
      · have htaken := takenLen_le n
          (min (CONNECTION_BUFFER_SIZE - connectionPending b.connection) wire.length)
        have hpending : connectionPending b.connection = b.connection.inp.size := rfl
        refine .inr ⟨_, ?_, ?_, hrecv⟩
        · omega
        · omega

end

/-! ## The daemon serves the requests of the library -/

/-- Pings get pongs, and other requests get responses. -/
theorem Answers.isResponse {r : Request} {m : ServerMsg} (h : Answers r m) :
    r ≠ .ping ↔ m.isResponse = true := by
  cases r <;> cases m <;> first | cases h; done | simp [ServerMsg.isResponse]

theorem responsesIn_replies (ms : List ServerMsg) : responsesIn (replies ms) = responsesIn ms := by
  unfold responsesIn replies
  rw [List.filter_filter]
  refine List.filter_congr fun m _ => ?_
  cases m <;> rfl

/-- The requests that wait for a response, and the responses. -/
theorem answers_responses {rs : List Request} {ms : List ServerMsg}
    (h : List.Forall₂ Answers rs (replies ms)) :
    List.Forall₂ Answers (demands rs) (responsesIn ms) := by
  rw [← responsesIn_replies]
  refine List.rel_filter (fun r m hanswers => ?_) h
  simpa using hanswers.isResponse

theorem demands_mono {rs rs' : List Request} (h : rs <+: rs') : demands rs <+: demands rs' :=
  h.filter _

/-- What the daemon has told a client of which it has read these requests: replies to the first of
them, and at most the beginning of the next one. -/
theorem Server.Told.left {s : Server} {c : ClientId} {handled : List Request}
    (hout : s.Outgoing c) (h : s.Told c handled) : (s.channel (.client c)).Left handled := by
  rcases h with ⟨hlive, htold⟩ | ⟨-, hleft⟩
  · have howes := (hout.resolve_right fun hgone => hgone.1 hlive).2
    exact ⟨handled, [], List.prefix_rfl, htold, howes.sent_prefix_frames, .inl rfl⟩
  · exact hleft

/-- **The next response is that to the first request without one.** -/
theorem Server.Told.serves {s : Server} {c : ClientId} {handled reqs : List Request}
    (hout : s.Outgoing c) (h : s.Told c handled) (hread : handled <+: reqs) :
    (s.channel (.client c)).Serves (demands reqs) := by
  obtain ⟨answered, part, hpre, hanswers, hsent, hpart⟩ := h.left hout
  set ch := s.channel (.client c) with hch
  have hresponses := answers_responses hanswers
  have hmono : demands answered <+: demands reqs := demands_mono (hpre.trans hread)
  refine ⟨hout.facts.1, fun fd hfd => fdInt_of_queued hfd, ?_, part, hsent, ?_⟩
  · intro ms m rest hframes hm
    rw [hframes, responsesIn_append, ← List.singleton_append, responsesIn_append,
      responsesIn_single_of_true hm, List.singleton_append] at hresponses
    obtain ⟨r, hget, hr⟩ := ListRel.exists_getElem? hresponses
    exact ⟨r, ListRel.getElem?_of_begun hmono hget, hr⟩
  · rcases hpart with hnil | ⟨r, hnext, m, hr, hbegun, hne, hbare⟩
    · exact .inl hnil
    cases hm : m.isResponse with
    | false =>
        -- a pong is a bare header
        refine .inl (hbare ?_)
        cases m <;> first | rfl | cases hm
    | true =>
        refine .inr ⟨m, r, hm, hbegun, hne, ?_, hr⟩
        have hnext' : demands answered ++ [r] <+: demands reqs := by
          rw [← demands_single (hr.isResponse.mpr hm), ← demands_append]
          exact demands_mono (hnext.trans hread)
        refine ListRel.getElem?_of_begun hnext' ?_
        rw [← hresponses.length_eq, List.getElem?_concat_length]

/-! ## Moves -/

/-- More bytes are sent to the daemon. -/
theorem Feed.Inv.more {c : ClientId} {stream : List UInt8} {f : Feed} (h : f.Inv c stream)
    (hlive : c ∈ f.server.live) (bytes : List UInt8) :
    ({ f with unread := f.unread ++ bytes } : Feed).Inv c (stream ++ bytes) where
  kept := h.kept
  old := h.old
  ring := h.ring
  gone := h.gone
  calls := h.calls.trans (parse_frames_mono requestFrame_lawful stream bytes)
  agrees := by
    refine h.agrees.imp_right fun hagrees => ?_
    unfold Feed.Agrees at hagrees ⊢
    rw [if_pos hlive] at hagrees
    rw [if_pos (show c ∈ ({ f with unread := f.unread ++ bytes } : Feed).server.live from hlive)]
    obtain ⟨read, hstream, hparse⟩ := hagrees
    refine ⟨read, ?_, hparse⟩
    rw [hstream, List.append_assoc]

/-- What holds between the moves of a conversation in which the library has sent `stream`. -/
structure Conversation.Inv (c : ClientId) (stream : List UInt8) (l : Conversation) : Prop where
  kept : l.feed.server.Kept
  old : c < l.feed.server.nextClientId
  outgoing : l.feed.server.Outgoing c
  told : l.feed.server.Told c (l.feed.calls.map Prod.fst)
  calls : l.feed.calls.map Prod.fst <+: (parse requestFrame stream).frames
  feed : c ∈ l.feed.server.live → l.feed.Inv c stream
  library : ¬ l.session.Over →
    l.session.Exchanging (l.feed.server.channel (.client c)) [] l.asked
  stream : ¬ l.session.Over → stream = sentBytes l.session.backend.sent

section

variable {k : Kernel} {c : ClientId} {stream : List UInt8} {l : Conversation}

/-- What the daemon has read are requests of the library. -/
theorem Conversation.Inv.serves (h : l.Inv c stream) (hopen : ¬ l.session.Over) :
    (l.feed.server.channel (.client c)).Serves l.asked := by
  obtain ⟨reqs, hvalid, hasked, -, ms, -, hears⟩ :=
    (h.library hopen).upto (Bool.eq_false_iff.mpr (not_or.mp hopen).2)
  have hstream : stream <+: reqs.flatMap Request.bytes := by
    rw [h.stream hopen, ← hears.put]
    exact List.prefix_append _ _
  rw [← hasked]
  exact h.told.serves h.outgoing (h.calls.trans (parse_requests_begun hvalid hstream))

/-- The library's side of a move of the daemon. -/
theorem Conversation.Inv.library_grow (h : l.Inv c stream) {ch' : Channel}
    (hgrows : (l.feed.server.channel (.client c)).Grows ch') (hopen : ¬ l.session.Over) :
    l.session.Exchanging ch' [] l.asked :=
  (h.library hopen).imp fun _ _ hupto => hupto.grow hgrows

/-- A step of the daemon that is not a request of the client. -/
theorem Conversation.Inv.server (h : l.Inv c stream) {st : Step} (hst : ∀ r, st ≠ .request c r)
    (hfeed : c ∈ (DdeSeatd.step k l.feed.server st).live →
      ({ l.feed with server := DdeSeatd.step k l.feed.server st } : Feed).Inv c stream) :
    ({ l with feed := { l.feed with server := DdeSeatd.step k l.feed.server st } }
      : Conversation).Inv c stream where
  kept := kept_step h.kept st
  old := h.old.trans_le (nextClientId_step h.kept st)
  outgoing := outgoing_step h.kept h.outgoing st
  told := told_step h.kept h.outgoing h.old h.told hst
  calls := h.calls
  feed := hfeed
  library := h.library_grow (grows_step h.kept (.client c) st)
  stream := h.stream

theorem Conversation.Inv.daemon (h : l.Inv c stream) (m : FeedMove) :
    ({ l with feed := l.feed.step k c m } : Conversation).Inv c stream := by
  cases m with
  | readable answers =>
      by_cases hlive : c ∈ l.feed.server.live
      · have hinv := h.feed hlive
        obtain ⟨ts, hread, hcalls⟩ := Feed.reading_readable (k := k) hinv answers
        obtain ⟨hout, htold⟩ := hread.told h.kept h.outgoing h.told
        have hnext : (l.feed.step k c (.readable answers)).Inv c stream :=
          hinv.move _ fun hwrite => by cases hwrite.1
        refine ⟨hnext.kept, hnext.old, hout, ?_, hnext.calls, fun _ => hnext,
          h.library_grow (hread.grows h.kept), h.stream⟩
        rw [hcalls]
        exact htold
      · rw [show l.feed.step k c (.readable answers) = l.feed from if_pos (.inr hlive)]
        exact h
  | other st =>
      by_cases hst : st.isInput c = true
      · rw [show l.feed.step k c (.other st) = l.feed from if_pos hst]
        exact h
      · have hstep : l.feed.step k c (.other st)
            = { l.feed with server := DdeSeatd.step k l.feed.server st } := if_neg hst
        rw [hstep]
        refine h.server (fun r hr => hst ?_) fun hlive => ?_
        · rw [hr]
          simp [Step.isInput]
        · have hbefore : c ∈ l.feed.server.live := by
            by_contra hgone
            exact not_live_step h.kept h.old hgone st hlive
          rw [← hstep]
          refine (h.feed hbefore).move (.other st) fun hwrite => hwrite.2 ?_
          rw [hstep]
          exact hlive

theorem LibraryMove.move_answers (act : LibraryMove) (a : Libseat.Answers) :
    (act.move a).answers = a := by
  cases act <;> rfl

/-- The socket gives the library what the daemon has sent. -/
theorem Conversation.Inv.delivers (h : l.Inv c stream) (hopen : ¬ l.session.Over)
    (env : Environment) :
    (env.answers (l.feed.server.channel (.client c)) l.session.backend).Delivers
      (l.feed.server.channel (.client c)) l.session.backend := by
  obtain ⟨reqs, -, -, -, ms, -, hears⟩ :=
    (h.library hopen).upto (Bool.eq_false_iff.mpr (not_or.mp hopen).2)
  exact Environment.delivers hears.stream.length_le

/-- A move of the library on a connection that is open. -/
theorem Conversation.Inv.move (h : l.Inv c stream) (hopen : ¬ l.session.Over) {act : LibraryMove}
    (htyped : act.Typed) (env : Environment) :
    ∃ stream', (l.step k c (.library act env)).Inv c stream' := by
  set ch := l.feed.server.channel (.client c) with hch
  set a := env.answers ch l.session.backend with ha
  have hstep : l.step k c (.library act env) = _ :=
    if_neg (not_or.mpr ⟨hopen, not_not.mpr htyped⟩)
  have hbefore : l.session.Exchanging ch l.session.backend.sent l.asked :=
    (h.library hopen).imp fun _ _ hupto => hupto.rebase List.prefix_rfl
  have hafter := (hbefore.move (h.serves hopen) (m := act.move a)
    (by rw [act.move_answers]; exact env.responds ch _)
    (by rw [act.move_answers]; exact h.delivers hopen env)).1
    (fun r a' hr => by
      cases act with
      | call r' =>
          cases hr
          exact htyped
      | dispatch _ | wake | execute | callbackReturn => cases hr)
  set session := l.session.step (act.move a) with hsession
  set bytes := (sentBytes session.backend.sent).drop (sentBytes l.session.backend.sent).length
    with hbytes
  have hexchanging : ¬ session.Over →
      session.Exchanging ch l.session.backend.sent (l.asked ++ l.session.asks (act.move a)) :=
    fun hover => hafter.resolve_left fun hended => hover (.inl hended)
  rw [hstep]
  refine ⟨stream ++ bytes, h.kept, h.old, h.outgoing, h.told,
    h.calls.trans (parse_frames_mono requestFrame_lawful _ _), fun hlive => ?_, fun hover => ?_,
    fun hover => ?_⟩
  · exact (h.feed hlive).more hlive bytes
  · exact (hexchanging hover).imp fun _ _ hupto => hupto.rebase List.nil_prefix
  · -- what was sent before comes first
    obtain ⟨reqs, -, -, -, ms, -, hears⟩ :=
      (hexchanging hover).upto (Bool.eq_false_iff.mpr (not_or.mp hover).2)
    obtain ⟨more, hmore⟩ := hears.sent
    show stream ++ bytes = sentBytes session.backend.sent
    rw [hbytes, h.stream hopen, ← hmore, sentBytes_append, List.drop_left]

theorem Conversation.Inv.step (h : l.Inv c stream) (m : ConversationMove) :
    ∃ stream', (l.step k c m).Inv c stream' := by
  cases m with
  | daemon m => exact ⟨stream, h.daemon m⟩
  | hangup =>
      refine ⟨stream, h.server (by simp) fun hlive => ?_⟩
      by_cases hbefore : c ∈ l.feed.server.live
      · rw [step_disconnect hbefore] at hlive
        exact absurd hlive (not_live_clientDestroy h.kept.wf h.kept.sound h.kept.peers)
      · exact absurd hlive (not_live_step h.kept h.old hbefore _)
  | library act env =>
      by_cases hgo : l.session.Over ∨ ¬ act.Typed
      · rw [show l.step k c (.library act env) = l from if_pos hgo]
        exact ⟨stream, h⟩
      · obtain ⟨hopen, htyped⟩ := not_or.mp hgo
        exact h.move hopen (not_not.mp htyped) env

end

/-- Nothing has been said. -/
theorem exchanging_init (ch : Channel) : Session.init.Exchanging ch [] [] := by
  refine ⟨[], fun _ hno => (by cases hno), rfl, [], rfl, ?_⟩
  exact ⟨rfl, List.prefix_rfl, zero_size.le.trans (Nat.zero_le _),
    fun hpos => absurd zero_size hpos.ne', rfl, .zero _ _ _, List.nil_prefix, List.nil_prefix, rfl⟩

theorem conversationInit_inv {k : Kernel} {vtBound : Bool} {steps : List Step} {connect : Step}
    (hlive : (run k vtBound steps).nextClientId ∈ (run k vtBound (steps ++ [connect])).live) :
    (conversationInit k vtBound steps connect).Inv (run k vtBound steps).nextClientId [] := by
  have hfeed : (feedInit k vtBound (steps ++ [connect]) []).Inv _ [] := feedInit_inv hlive
  have hrun : run k vtBound (steps ++ [connect]) = step k (run k vtBound steps) connect := by
    unfold run
    rw [Run.run_append]
    rfl
  refine ⟨hfeed.kept, hfeed.old, outgoing_run k vtBound _ _, ?_, List.nil_prefix, fun _ => hfeed,
    fun _ => exchanging_init _, fun _ => rfl⟩
  show (run k vtBound (steps ++ [connect])).Told _ []
  rw [hrun] at hlive ⊢
  exact told_accepted (kept_run k vtBound steps) hlive

/-! ## Whole conversations -/

/-- Each request the daemon has handled, with its reply: the handlers reply one after the other.
Pings are left out. -/
def Conversation.exchanges (c : ClientId) (l : Conversation) : List (Request × ServerMsg) :=
  ((l.feed.calls.map Prod.fst).zip (replies (l.feed.server.channel (.client c)).frames)).filter
    fun x => x.1 ≠ .ping

theorem zip_exchanges {rs : List Request} {ms : List ServerMsg} (h : List.Forall₂ Answers rs ms) :
    let pairs := (rs.zip ms).filter fun x => x.1 ≠ .ping
    pairs.map Prod.fst = demands rs ∧ pairs.map Prod.snd = responsesIn ms
      ∧ ∀ x ∈ pairs, Answers x.1 x.2 := by
  induction h with
  | nil => exact ⟨rfl, rfl, fun _ hno => by cases hno⟩
  | @cons r m rs ms hr _ ih =>
      obtain ⟨hfst, hsnd, hall⟩ := ih
      by_cases hping : r = .ping
      · have hm : m.isResponse = false := by
          rw [Bool.eq_false_iff]
          exact fun hm => hr.isResponse.mpr hm hping
        simp only [List.zip_cons_cons, demands, responsesIn, List.filter_cons, hping, hm,
          ne_eq, not_true_eq_false, decide_false, Bool.false_eq_true, if_false]
        exact ⟨hfst, hsnd, hall⟩
      · have hm := hr.isResponse.mp hping
        simp only [List.zip_cons_cons, demands, responsesIn, List.filter_cons, hping, hm,
          ne_eq, not_false_eq_true, decide_true, if_true, List.map_cons, List.cons.injEq, true_and]
        refine ⟨hfst, hsnd, fun x hx => ?_⟩
        rcases List.mem_cons.mp hx with rfl | hx
        · exact hr
        · exact hall x hx

/-- The exchanges are those of the requests that were answered. -/
theorem Conversation.Inv.exchanges {c : ClientId} {stream : List UInt8} {l : Conversation}
    (h : l.Inv c stream) : ∃ answered, answered <+: l.feed.calls.map Prod.fst
      ∧ (l.exchanges c).map Prod.fst = demands answered
      ∧ (l.exchanges c).map Prod.snd = responsesIn (l.feed.server.channel (.client c)).frames
      ∧ ∀ x ∈ l.exchanges c, Answers x.1 x.2 := by
  obtain ⟨answered, part, ⟨more, hmore⟩, hanswers, -, -⟩ := h.told.left h.outgoing
  have hzip : (l.feed.calls.map Prod.fst).zip (replies (l.feed.server.channel (.client c)).frames)
      = answered.zip (replies (l.feed.server.channel (.client c)).frames) := by
    conv_lhs => rw [← hmore, ← List.append_nil (replies _)]
    rw [List.zip_append hanswers.length_eq, List.zip_nil_right, List.append_nil]
  obtain ⟨hfst, hsnd, hall⟩ := zip_exchanges hanswers
  rw [responsesIn_replies] at hsnd
  refine ⟨answered, ⟨more, hmore⟩, ?_⟩
  unfold Conversation.exchanges
  rw [hzip]
  exact ⟨hfst, hsnd, hall⟩

theorem converse_inv {k : Kernel} {vtBound : Bool} {steps : List Step} {connect : Step}
    (hlive : (run k vtBound steps).nextClientId ∈ (run k vtBound (steps ++ [connect])).live)
    (moves : List ConversationMove) :
    ∃ stream, (converse k vtBound steps connect moves).Inv (run k vtBound steps).nextClientId
      stream := by
  refine Run.run_invariant (P := fun l : Conversation => ∃ stream, l.Inv _ stream) ?_
    ⟨[], conversationInit_inv hlive⟩ moves
  rintro l m ⟨stream, h⟩
  exact h.step m

/-- **Every request gets its own response.** Whatever the daemon and the library do, in whatever
pieces the socket hands the bytes over: as long as the library has not closed the connection, it
has read whole frames and what is in the ring, and the responses among these frames are the replies
of the daemon to the requests of the calls that have returned, one for each, in their order; a call
that waits has taken nothing. Nothing that the library insists on is missing at any of its moves.

`poll` fails with nothing but EAGAIN and EINTR here, and what it reports to be readable is
(`PollChoice`): after any other failure a call gives up and leaves its response to the next one. -/
theorem own_response (k : Kernel) (vtBound : Bool) (steps : List Step) (connect : Step)
    (moves : List ConversationMove)
    (hlive : (run k vtBound steps).nextClientId ∈ (run k vtBound (steps ++ [connect])).live)
    (hopen : ¬ (converse k vtBound steps connect moves).session.Over) :
    let c := (run k vtBound steps).nextClientId
    let l := converse k vtBound steps connect moves
    let ch := l.feed.server.channel (.client c)
    let b := l.session.backend
    let answered := l.session.answered l.asked
    (∃ taken, taken <+: ch.frames ∧ b.input = messageBytes taken ++ b.connection.inp.toList
        ∧ responsesIn taken = ((l.exchanges c).take answered.length).map Prod.snd)
      ∧ answered = ((l.exchanges c).take answered.length).map Prod.fst
      ∧ (∀ x ∈ l.exchanges c, Answers x.1 x.2)
      ∧ ∀ (act : LibraryMove) (env : Environment),
          ∀ check ∈ l.session.checks (act.move (env.answers ch b)), check.Passes := by
  intro c l ch b answered
  obtain ⟨stream, h⟩ := converse_inv hlive moves
  have hserves : ch.Serves l.asked := h.serves hopen
  obtain ⟨reqs, hvalid, hasked, hpre, ms, hms, hears⟩ :=
    (h.library hopen).upto (Bool.eq_false_iff.mpr (not_or.mp hopen).2)
  obtain ⟨served, hserved, hfst, hsnd, hall⟩ := h.exchanges
  have hresponses : responsesIn ms <+: responsesIn ch.frames := hears.begun.filter _
  -- the requests that were served come first among those that were asked
  have hasks : demands served <+: l.asked := by
    have hstream : stream <+: reqs.flatMap Request.bytes := by
      rw [h.stream hopen, ← hears.put]
      exact List.prefix_append _ _
    rw [← hasked]
    exact demands_mono (hserved.trans (h.calls.trans (parse_requests_begun hvalid hstream)))
  have hlen : answered.length ≤ (demands served).length := by
    rw [← hfst, List.length_map, ← List.length_map (f := Prod.snd), hsnd]
    exact hms.symm.trans_le hresponses.length_le
  refine ⟨⟨ms, hears.begun, hears.bytes, ?_⟩, ?_, hall, fun act env => ?_⟩
  · rw [List.map_take, hsnd]
    exact (List.prefix_iff_eq_take.mp hresponses).trans (by rw [hms])
  · rw [List.map_take, hfst]
    exact List.prefix_iff_eq_take.mp (List.prefix_of_prefix_length_le hpre hasks hlen)
  · refine ((h.library hopen).move hserves ?_ ?_).2
    · rw [act.move_answers]
      exact env.responds ch b
    · rw [act.move_answers]
      exact h.delivers hopen env

/-- A socket that takes all that is sent, and delivers as chosen. -/
def Environment.ready (recv : List RecvChoice) : Environment :=
  ⟨fun _ => [.sent CONNECTION_BUFFER_SIZE], fun _ => true, .readable, some recv⟩

/-- A seat is opened and a device closed that is not there, over a socket that hands the bytes over
in pieces that end inside the headers. -/
def seatAndNoDevice : List ConversationMove :=
  [.library (.call .openSeat) (.ready []), .daemon (.readable [.bytes 3]),
    .daemon (.readable [.bytes 100]), .library .wake (.ready [.take 3]),
    .library .wake (.ready [.take 100]), .library .execute (.ready []),
    .library .callbackReturn (.ready []), .library (.call (.closeDevice 5)) (.ready []),
    .daemon (.readable [.bytes 100]), .library .wake (.ready [.fail EINTR, .take 100])]

theorem own_response_of_two_calls :
    let l := converse (.obliging 1) true [] (.connect 100) seatAndNoDevice
    l.session.control = .app ∧ l.asked = [.openSeat, .closeDevice 5]
      ∧ ∃ taken, taken <+: (l.feed.server.channel (.client 0)).frames
        ∧ responsesIn taken = [.seatOpened SEAT0, .error EBADF] := by
  intro l
  have hfacts : l.session.control = .app ∧ l.asked = [.openSeat, .closeDevice 5]
      ∧ ((l.exchanges 0).take (l.session.answered l.asked).length).map Prod.snd
        = [.seatOpened SEAT0, .error EBADF] := by decide +kernel
  obtain ⟨⟨taken, hpre, -, htaken⟩, -⟩ := own_response (.obliging 1) true [] (.connect 100)
    seatAndNoDevice (by decide +kernel) (by decide +kernel)
  exact ⟨hfacts.1, hfacts.2.1, taken, hpre, htaken.trans hfacts.2.2⟩

end DdeSeatd
