import DdeSeatd.Libseat.Exchange

set_option autoImplicit false

/-! # Runs of the library against a daemon that answers

The moves of a session whose connection leads to a daemon that answers the requests in their order.
Between any two moves the library has taken as many responses as it has put requests, one less
while a call waits for its response (`Session.Exchanging`). The requests put are those of the calls
that were not refused (`Session.asks`); the pings of `check_pending_events` are not counted, since
their answers are taken like events.
-/

namespace DdeSeatd

/-- What C can hand to the library: paths are strings, ids are of type `int`. -/
def Request.Typed : Request → Prop
  | .openDevice path => 0 ∉ path
  | .closeDevice i | .switchSession i => -2 ^ 31 ≤ i ∧ i < 2 ^ 31
  | .openSeat | .closeSeat | .disableSeat | .ping => True

instance Request.typedDecidable : (r : Request) → Decidable r.Typed
  | .openDevice path => inferInstanceAs (Decidable (0 ∉ path))
  | .closeDevice _ | .switchSession _ => inferInstanceAs (Decidable (_ ∧ _))
  | .openSeat | .closeSeat | .disableSeat | .ping => inferInstanceAs (Decidable True)

namespace Libseat

open Fallible RingBuffer

/-! ## Requests that get a response -/

/-- The requests for whose response a call waits. -/
def demands (reqs : List Request) : List Request := reqs.filter fun r => r ≠ .ping

@[simp] theorem demands_append (reqs reqs' : List Request) :
    demands (reqs ++ reqs') = demands reqs ++ demands reqs' := List.filter_append ..

@[simp] theorem demands_ping : demands [.ping] = [] := rfl

theorem demands_single {r : Request} (h : r ≠ .ping) : demands [r] = [r] := by
  simp [demands, h]

/-- A request that is not refused can be sent. -/
theorem valid_of_not_refused {r : Request} (h : r.Typed) (hrefuses : refuses r = false) :
    r.Valid := by
  cases r with
  | openDevice path => exact ⟨h, by simpa [refuses] using hrefuses⟩
  | closeDevice _ | switchSession _ => exact h
  | openSeat | closeSeat | disableSeat | ping => trivial

theorem valid_append {reqs : List Request} {r : Request} (h : ∀ r' ∈ reqs, r'.Valid) (hr : r.Valid) :
    ∀ r' ∈ reqs ++ [r], r'.Valid := by
  intro r' hr'
  rcases List.mem_append.mp hr' with hmem | hmem
  · exact h r' hmem
  · rw [List.mem_singleton.mp hmem]
    exact hr

/-- The request that a move puts on the connection, if it is a call that is not refused. -/
def Session.asks (s : Session) : Move → List Request
  | .call r _ =>
      match s.control, r with
      | .closed, .openSeat => [.openSeat]
      | .app, .openSeat => []
      | .app, .ping => []
      | .app, r => if s.backend.error ∨ refuses r then [] else [r]
      | _, _ => []
  | .dispatch _ _ | .wake _ | .execute _ | .callbackReturn _ => []

/-- The backend is freed: `close_seat` has returned, or `open_seat` has failed. -/
def Session.Ended (s : Session) : Prop := s.control = .closed ∧ s.result ≠ none

/-! ## What holds between moves -/

/-- The requests `asked` were put, pings apart, and all have their response, or all but the one a
call waits for. Nothing is said of a connection that was closed for an error. -/
def Session.Exchanging (s : Session) (ch : Channel) (s₀ : List Segment) (asked : List Request) :
    Prop :=
  ∃ reqs : List Request, (∀ r ∈ reqs, r.Valid) ∧ demands reqs = asked
    ∧ match s.control with
      | .closed => s.backend.Upto ch s₀ asked.length (reqs.flatMap Request.bytes)
      | .waiting r => r ≠ .ping ∧ ∃ done, asked = done ++ [r]
          ∧ s.backend.Upto ch s₀ done.length (reqs.flatMap Request.bytes)
      | .app | .executing _ | .aborted => s.backend.error = true
          ∨ s.backend.Upto ch s₀ asked.length (reqs.flatMap Request.bytes)

section

variable {s : Session} {ch : Channel} {s₀ : List Segment} {asked : List Request} {a : Answers}
  {reqs : List Request} {r : Request} {b : Backend} {x : List UInt8}

theorem Backend.Upto.rebase {n : Nat} (h : b.Upto ch s₀ n x) {s₁ : List Segment}
    (hsent : s₁ <+: b.sent) : b.Upto ch s₁ n x := by
  obtain ⟨ms, hms, hears⟩ := h
  exact ⟨ms, hms, { hears with sent := hsent }⟩

theorem Backend.Upto.same {b b' : Backend} {n : Nat} (h : b.Upto ch s₀ n x)
    (hconn : b'.connection = b.connection) (hinput : b'.input = b.input) (hsent : b'.sent = b.sent)
    (herror : b'.error = b.error) : b'.Upto ch s₀ n x := by
  obtain ⟨ms, hms, hears⟩ := h
  exact ⟨ms, hms, hears.same hconn hinput hsent herror⟩

/-- The daemon goes on. -/
theorem Backend.Upto.grow {ch' : Channel} {n : Nat} (h : b.Upto ch s₀ n x)
    (hgrows : ch.Grows ch') : b.Upto ch' s₀ n x := by
  obtain ⟨ms, hms, hears⟩ := h
  obtain ⟨more, hmore⟩ := hgrows.sent
  have hsent : sentBytes ch.sent <+: sentBytes ch'.sent := by
    rw [← hmore, sentBytes_append]
    exact List.prefix_append _ _
  exact ⟨ms, hms, { hears with
    receives := hears.receives.grow hgrows.sent hgrows.frames hgrows.queued
    begun := hears.begun.trans hgrows.frames
    stream := hears.stream.trans hsent }⟩

/-- What holds of the backend holds of the session. -/
theorem Session.Exchanging.imp {ch' : Channel} {s₁ : List Segment} (h : s.Exchanging ch s₀ asked)
    (hupto : ∀ n x, s.backend.Upto ch s₀ n x → s.backend.Upto ch' s₁ n x) :
    s.Exchanging ch' s₁ asked := by
  obtain ⟨reqs, hvalid, hasked, hstate⟩ := h
  refine ⟨reqs, hvalid, hasked, ?_⟩
  cases hcontrol : s.control with
  | closed =>
      rw [hcontrol] at hstate
      exact hupto _ _ hstate
  | waiting r =>
      rw [hcontrol] at hstate
      obtain ⟨hping, done, hdone, hwaits⟩ := hstate
      exact ⟨hping, done, hdone, hupto _ _ hwaits⟩
  | app | executing k | aborted =>
      rw [hcontrol] at hstate
      exact hstate.imp id (hupto _ _)

/-- The requests that have their response. -/
def Session.answered (s : Session) (asked : List Request) : List Request :=
  match s.control with
  | .waiting _ => asked.dropLast
  | .closed | .app | .executing _ | .aborted => asked

/-- On a connection that is open, the responses taken are as many as the requests that have one. -/
theorem Session.Exchanging.upto (h : s.Exchanging ch s₀ asked) (hok : s.backend.error = false) :
    ∃ reqs : List Request, (∀ r ∈ reqs, r.Valid) ∧ demands reqs = asked
      ∧ s.answered asked <+: asked
      ∧ s.backend.Upto ch s₀ (s.answered asked).length (reqs.flatMap Request.bytes) := by
  obtain ⟨reqs, hvalid, hasked, hstate⟩ := h
  have hne : s.backend.error ≠ true := by rw [hok]; exact Bool.false_ne_true
  refine ⟨reqs, hvalid, hasked, ?_⟩
  unfold Session.answered
  cases hcontrol : s.control with
  | closed =>
      rw [hcontrol] at hstate
      exact ⟨List.prefix_rfl, hstate⟩
  | waiting r =>
      rw [hcontrol] at hstate
      obtain ⟨-, done, rfl, hupto⟩ := hstate
      dsimp only
      rw [List.dropLast_concat]
      exact ⟨List.prefix_append _ _, hupto⟩
  | app | executing k | aborted =>
      rw [hcontrol] at hstate
      exact ⟨List.prefix_rfl, hstate.resolve_left hne⟩

/-- The library gives up control in a call that has put a request. -/
theorem Session.exchanging_enter {m : StateM Backend Next} {done reqs : List Request}
    (hvalid : ∀ r ∈ reqs, r.Valid) (hasked : demands reqs = done ++ [r]) (hping : r ≠ .ping)
    (h : (m.run s.backend).1.Exchanges ch s₀ r done.length (reqs.flatMap Request.bytes)
      (m.run s.backend).2) :
    (s.enter m).Ended ∨ (s.enter m).Exchanging ch s₀ (done ++ [r]) := by
  have hlen : (done ++ [r]).length = done.length + 1 := List.length_append
  -- a call that returns may have put a ping
  have hcaught : ∀ b : Backend, b.Caught ch s₀ (done.length + 1) (reqs.flatMap Request.bytes) →
      ∃ reqs' : List Request, (∀ r ∈ reqs', r.Valid) ∧ demands reqs' = done ++ [r]
        ∧ (b.error = true
          ∨ b.Upto ch s₀ (done ++ [r]).length (reqs'.flatMap Request.bytes)) := by
    intro b hb
    rw [hlen]
    rcases hb with he | hupto | hupto
    · exact ⟨reqs, hvalid, hasked, .inl he⟩
    · exact ⟨reqs, hvalid, hasked, .inr hupto⟩
    · have hping' : Request.Valid .ping := trivial
      refine ⟨reqs ++ [.ping], valid_append hvalid hping', ?_, .inr ?_⟩
      · rw [demands_append, demands_ping, List.append_nil]
        exact hasked
      · rw [List.flatMap_append, List.flatMap_singleton]
        exact hupto
  unfold Session.enter
  rcases hrun : m.run s.backend with ⟨next, b'⟩
  rw [hrun] at h
  cases next with
  | returns _ | executes _ | aborts =>
      obtain ⟨reqs', hvalid', hasked', hstate⟩ := hcaught b' h
      exact .inr ⟨reqs', hvalid', hasked', hstate⟩
  | waits r' =>
      obtain ⟨rfl, hupto⟩ := h
      exact .inr ⟨reqs, hvalid, hasked, hping, done, rfl, hupto⟩
  | destroys result => exact .inl ⟨rfl, fun hno => by cases hno⟩

/-- The library gives up control elsewhere. -/
theorem Session.exchanging_enter_quiet {m : StateM Backend Next} (hvalid : ∀ r ∈ reqs, r.Valid)
    (hasked : demands reqs = asked)
    (h : (m.run s.backend).1.Quiet ch s₀ asked.length (reqs.flatMap Request.bytes)
      (m.run s.backend).2) :
    (s.enter m).Ended ∨ (s.enter m).Exchanging ch s₀ asked := by
  unfold Session.enter
  rcases hrun : m.run s.backend with ⟨next, b'⟩
  rw [hrun] at h
  cases next with
  | returns _ | executes _ | aborts => exact .inr ⟨reqs, hvalid, hasked, h⟩
  | waits r' => exact h.elim
  | destroys result => exact .inl ⟨rfl, fun hno => by cases hno⟩

/-- The loop of `execute_events`. -/
theorem Session.exchanging_executeEvents (hserves : ch.Serves asked) (hvalid : ∀ r ∈ reqs, r.Valid)
    (hasked : demands reqs = asked)
    (hstate : s.backend.error = true
      ∨ s.backend.Upto ch s₀ asked.length (reqs.flatMap Request.bytes)) (hresponds : a.Responds)
    (hdelivers : a.Delivers ch s.backend) (list : List PendingEvent) (executed : Nat) (k : Cont) :
    (s.executeEvents a list executed k).Ended
      ∨ (s.executeEvents a list executed k).Exchanging ch s₀ asked := by
  cases list with
  | cons ev list =>
      refine .inr ⟨reqs, hvalid, hasked, ?_⟩
      exact hstate.imp id fun hupto => hupto.same rfl rfl rfl rfl
  | nil =>
      refine Session.exchanging_enter_quiet hvalid hasked ?_
      exact afterEvents_quiet hserves le_rfl hresponds executed k s.backend ⟨hstate, hdelivers⟩

/-- A call that puts a request. -/
theorem Session.exchanging_request (hserves : ch.Serves asked) (hvalid : ∀ r ∈ reqs, r.Valid)
    (hasked : demands reqs = asked)
    (hupto : s.backend.Upto ch s₀ asked.length (reqs.flatMap Request.bytes)) (hr : r.Valid)
    (hping : r ≠ .ping) :
    (s.enter (request a r)).Ended ∨ (s.enter (request a r)).Exchanging ch s₀ (asked ++ [r]) := by
  have hreqs : (reqs ++ [r]).flatMap Request.bytes = reqs.flatMap Request.bytes ++ r.bytes := by
    rw [List.flatMap_append, List.flatMap_singleton]
  refine Session.exchanging_enter (valid_append hvalid hr) ?_ hping ?_
  · rw [demands_append, demands_single hping, hasked]
  · rw [hreqs]
    exact request_exchanges (hserves.more [r]) List.length_append List.getElem?_concat_length hping
      s.backend hupto

/-- A call that is refused changes nothing. -/
theorem call_refused (h : b.error = true ∨ refuses r = true) :
    (∃ result, (Libseat.call a r).run b = (.returns result, b))
      ∨ ∃ k, (Libseat.call a r).run b = (.executes k, b) := by
  unfold Libseat.call
  show (∃ result, StateT.run (if b.error then _ else _ : StateM Backend Next) b = _)
    ∨ ∃ k, StateT.run (if b.error then _ else _ : StateM Backend Next) b = _
  by_cases herror : b.error = true
  · rw [if_pos herror]
    cases r with
    | closeSeat => exact .inr ⟨_, rfl⟩
    | openSeat | openDevice _ | closeDevice _ | disableSeat | switchSession _ | ping =>
        exact .inl ⟨_, rfl⟩
  · rw [if_neg herror, if_pos (h.resolve_left herror)]
    exact .inl ⟨_, rfl⟩

theorem call_request (h : ¬ (b.error = true ∨ refuses r = true)) :
    (Libseat.call a r).run b = (request a r).run b := by
  unfold Libseat.call
  show StateT.run (if b.error then _ else _ : StateM Backend Next) b = _
  rw [if_neg (not_or.mp h).1, if_neg (not_or.mp h).2]

/-- An entry point other than `open_seat` and `dispatch`. -/
theorem Session.exchanging_call (hserves : ch.Serves asked) (hvalid : ∀ r ∈ reqs, r.Valid)
    (hasked : demands reqs = asked)
    (hstate : s.backend.error = true
      ∨ s.backend.Upto ch s₀ asked.length (reqs.flatMap Request.bytes)) (hr : r.Typed)
    (hping : r ≠ .ping) :
    (s.enter (Libseat.call a r)).Ended ∨ (s.enter (Libseat.call a r)).Exchanging ch s₀
      (asked ++ if s.backend.error ∨ refuses r then [] else [r]) := by
  by_cases hrefused : s.backend.error = true ∨ refuses r = true
  · rw [if_pos hrefused, List.append_nil]
    refine Session.exchanging_enter_quiet hvalid hasked ?_
    rcases call_refused (a := a) hrefused with ⟨result, hrun⟩ | ⟨k, hrun⟩
    · rw [hrun]
      exact hstate
    · rw [hrun]
      exact hstate
  · have henter : s.enter (Libseat.call a r) = s.enter (request a r) := by
      unfold Session.enter
      rw [call_request hrefused]
    obtain ⟨herror, hrefuses⟩ := not_or.mp hrefused
    rw [if_neg hrefused, henter]
    exact Session.exchanging_request hserves hvalid hasked (hstate.resolve_left herror)
      (valid_of_not_refused hr (Bool.eq_false_iff.mpr hrefuses)) hping

end

/-! ## What the library insists on -/

/-- A place where the library insists on what it finds: a call of `read_header`, or one of
`read_and_queue` that passes no pointer for an opcode. -/
inductive Check where
  | header (expectedOpcode expectedSize : Nat) (variableSize : Bool) (b : Backend)
  | queue (a : Answers) (b : Backend)

/-- On a connection that is open, `read_header` takes none of the branches that close it, and
`read_and_queue` does not fail with `EBADMSG`. -/
def Check.Passes : Check → Prop
  | .header expectedOpcode expectedSize variableSize b => b.error = false →
      (outcome (readHeader expectedOpcode expectedSize variableSize) b).2.error = false
  | .queue a b => b.error = false → (outcome (readAndQueue a false) b).1 ≠ .error (EBADMSG : Int)

def headerCheck (r : Request) (b : Backend) : Check :=
  .header (responseHeader r).1 (responseHeader r).2.1 (responseHeader r).2.2 b

/-- The checks of `finish`. -/
def finishChecks (a : Answers) (r : Request) (b : Backend) : Except Int Unit → List Check
  | .error _ => if r = .closeSeat then [headerCheck r b] else []
  | .ok _ =>
      if r = .openSeat ∨ r = .closeSeat then [headerCheck r b]
      else [headerCheck r b, .queue a (outcome (readResponse r) b).2]

def awaitChecks (a : Answers) (r : Request) (b : Backend) : List Check :=
  match outcome (readAndQueue a true) b with
  | (.error e, b') => finishChecks a r b' (.error e)
  | (.ok p, b') => if p.2 = 0 then [] else finishChecks a r b' (.ok ())

def wakeChecks (a : Answers) (r : Request) (b : Backend) : List Check :=
  match outcome (pollConnection a) b with
  | (.error e, b') => finishChecks a r b' (.error e)
  | (.ok _, b') => awaitChecks a r b'

def requestChecks (a : Answers) (r : Request) (b : Backend) : List Check :=
  match outcome (sendRequest a r) b with
  | (.error e, b') => finishChecks a r b' (.error e)
  | (.ok _, b') => awaitChecks a r b'

/-- The checks of `afterEvents`: only `dispatch` calls `read_and_queue` there. -/
def afterEventsChecks (a : Answers) (executed : Nat) (b : Backend) : Cont → List Check
  | .predispatch packets timeout =>
      match (dispatchRead a (packets + executed > 0 ∨ timeout = 0)).run b with
      | (.ok len, b') => if len = 0 then [] else [.queue a b']
      | (.error e, b') => if e ≠ EAGAIN then [] else [.queue a b']
  | .postdispatch _ _ | .openSeat | .closeSeat _ => []

def executeChecks (a : Answers) (list : List PendingEvent) (executed : Nat) (b : Backend)
    (k : Cont) : List Check :=
  if list = [] then afterEventsChecks a executed b k else []

/-- The checks of a move, at the backend each of them meets. -/
def Session.checks (s : Session) : Move → List Check
  | .call r a =>
      match s.control, r with
      | .closed, .openSeat => requestChecks a .openSeat s.backend
      | .app, .openSeat => []
      | .app, .ping => []
      | .app, r => if s.backend.error ∨ refuses r then [] else requestChecks a r s.backend
      | _, _ => []
  | .dispatch _ a =>
      match s.control with
      | .app => if s.backend.error then [] else [.queue a s.backend]
      | _ => []
  | .wake a =>
      match s.control with
      | .waiting r => wakeChecks a r s.backend
      | _ => []
  | .execute a =>
      match s.control with
      | .executing k =>
          executeChecks a s.backend.pendingEvents 0 { s.backend with pendingEvents := [] } k
      | _ => []
  | .callbackReturn a =>
      match s.control, s.backend.frames with
      | .app, f :: frames =>
          executeChecks a f.list f.executed { s.backend with frames := frames } f.cont
      | _, _ => []

section

variable {ch : Channel} {s₀ : List Segment} {asked : List Request} {a : Answers} {r : Request}
  {b : Backend} {n : Nat} {x : List UInt8}

theorem headerCheck_of_error (he : b.error = true) : (headerCheck r b).Passes :=
  fun hno => absurd (he.symm.trans hno) Bool.true_eq_false.mp

/-- The header is that of the response to the request. -/
theorem Backend.Faces.passes (h : b.Faces ch s₀ r n x) (hping : r ≠ .ping) :
    (headerCheck r b).Passes := by
  intro _
  show (outcome (readResponseHeader r) b).2.error = false
  rcases h.header hping with ⟨e, b', hout, ms, -, hears⟩ | ⟨ms, m, rest, bytes, -, hears, -, -, -, -, -, hout⟩
  · rw [hout]
    exact hears.ok
  · rw [hout]
    exact hears.ok

/-- No response is in the ring when none is expected. -/
theorem Backend.Upto.passes (h : b.Upto ch s₀ n x) (hserves : ch.Serves asked)
    (hn : asked.length ≤ n) : (Check.queue a b).Passes := by
  intro _ hbad
  have hqueue := readAndQueue_upto (a := a) hserves (fun _ => hn : false = false → _) b h
  rcases hout : outcome (readAndQueue a false) b with ⟨e | p, b'⟩ <;> rw [hout] at hqueue hbad
  · rw [hqueue.2] at hbad
    exact absurd (Except.error.inj hbad) (by decide)
  · cases hbad

theorem finishChecks_error (a : Answers) (he : b.error = true) (e : Int) :
    ∀ check ∈ finishChecks a r b (.error e), check.Passes := by
  intro check hmem
  change check ∈ (if r = .closeSeat then [headerCheck r b] else []) at hmem
  split_ifs at hmem
  · rw [List.mem_singleton.mp hmem]
    exact headerCheck_of_error he
  · cases hmem

theorem finishChecks_ok (h : b.Faces ch s₀ r n x) (hserves : ch.Serves asked)
    (hn : asked.length = n + 1) (hping : r ≠ .ping) :
    ∀ check ∈ finishChecks a r b (.ok ()), check.Passes := by
  intro check hmem
  change check ∈ (if r = .openSeat ∨ r = .closeSeat then [headerCheck r b]
    else [headerCheck r b, .queue a (outcome (readResponse r) b).2]) at hmem
  split_ifs at hmem with hseat
  · rw [List.mem_singleton.mp hmem]
    exact h.passes hping
  · rcases List.mem_cons.mp hmem with rfl | hmem
    · exact h.passes hping
    · rw [List.mem_singleton.mp hmem]
      have hresponse := readResponse_faces hserves (not_or.mp hseat) hping b h
      rcases hout : outcome (readResponse r) b with ⟨e | reply, b'⟩ <;> rw [hout] at hresponse
      · exact Backend.Upto.passes hresponse hserves hn.le
      · exact Backend.Upto.passes hresponse hserves hn.le

theorem awaitChecks_pass (h : b.Upto ch s₀ n x) (hserves : ch.Serves asked)
    (hn : asked.length = n + 1) (hlast : asked[n]? = some r) (hping : r ≠ .ping) :
    ∀ check ∈ awaitChecks a r b, check.Passes := by
  have hqueue : Ends _ _ (outcome (readAndQueue a true) b) :=
    readAndQueue_upto hserves (fun hno => by cases hno) b h
  unfold awaitChecks
  rcases hout : outcome (readAndQueue a true) b with ⟨e | p, b'⟩ <;> rw [hout] at hqueue
  · exact finishChecks_error a hqueue.1 e
  · dsimp only
    split_ifs with hzero
    · exact fun _ hno => by cases hno
    · obtain ⟨r', hr', hfaces⟩ := hqueue.2 hzero
      rw [hlast] at hr'
      cases hr'
      exact finishChecks_ok hfaces hserves hn hping

theorem wakeChecks_pass (h : b.Upto ch s₀ n x) (hserves : ch.Serves asked)
    (hn : asked.length = n + 1) (hlast : asked[n]? = some r) (hping : r ≠ .ping)
    (hresponds : a.Responds) (hdelivers : a.Delivers ch b) :
    ∀ check ∈ wakeChecks a r b, check.Passes := by
  have hpoll := pollConnection_upto hserves hresponds b ⟨h, hdelivers⟩
  unfold wakeChecks
  rcases hout : outcome (pollConnection a) b with ⟨e | len, b'⟩ <;> rw [hout] at hpoll
  · exact finishChecks_error a hpoll e
  · exact awaitChecks_pass hpoll hserves hn hlast hping

theorem requestChecks_pass (h : b.Upto ch s₀ n x) (hserves : ch.Serves asked)
    (hn : asked.length = n + 1) (hlast : asked[n]? = some r) (hping : r ≠ .ping) :
    ∀ check ∈ requestChecks a r b, check.Passes := by
  have hsend := sendRequest_upto (a := a) r b h
  unfold requestChecks
  rcases hout : outcome (sendRequest a r) b with ⟨e | _, b'⟩ <;> rw [hout] at hsend
  · exact finishChecks_error a hsend e
  · exact awaitChecks_pass hsend hserves hn hlast hping

theorem queueCheck_of_state (h : b.error = true ∨ b.Upto ch s₀ n x) (hserves : ch.Serves asked)
    (hn : asked.length ≤ n) : (Check.queue a b).Passes := by
  intro hok
  exact (h.resolve_left (by rw [hok]; exact Bool.false_ne_true)).passes hserves hn hok

theorem executeChecks_pass (h : b.error = true ∨ b.Upto ch s₀ n x) (hserves : ch.Serves asked)
    (hn : asked.length ≤ n) (hresponds : a.Responds) (hdelivers : a.Delivers ch b)
    (list : List PendingEvent) (executed : Nat) (k : Cont) :
    ∀ check ∈ executeChecks a list executed b k, check.Passes := by
  have hqueue : ∀ b' : Backend, b'.error = true ∨ b'.Upto ch s₀ n x →
      ∀ check ∈ [Check.queue a b'], check.Passes := by
    intro b' hb' check hmem
    rw [List.mem_singleton.mp hmem]
    exact queueCheck_of_state hb' hserves hn
  have hnone : ∀ check ∈ ([] : List Check), check.Passes := fun _ hno => by cases hno
  unfold executeChecks
  split_ifs
  · cases k with
    | predispatch packets timeout =>
        have hread := dispatchRead_quiet hserves hresponds
          (packets + executed > 0 ∨ timeout = 0) b ⟨h, hdelivers⟩
        unfold afterEventsChecks
        dsimp only
        rcases hrun : (dispatchRead a (packets + executed > 0 ∨ timeout = 0)).run b with
          ⟨e | len, b'⟩
        · rw [hrun] at hread
          dsimp only
          split_ifs
          · exact hnone
          · exact hqueue b' hread
        · rw [hrun] at hread
          dsimp only
          split_ifs
          · exact hnone
          · exact hqueue b' hread
    | postdispatch predispatch packets => exact hnone
    | openSeat => exact hnone
    | closeSeat res => exact hnone
  · exact hnone

end

/-- `Session.step_cases`, with what a move asks and checks. -/
@[elab_as_elim]
theorem Session.checks_cases {s : Session}
    {motive : Move → Session → List Request → List Check → Prop} (m : Move)
    (same : motive m s [] [])
    (openSeat : ∀ a, s.control = .closed → motive (.call .openSeat a)
      (s.enter (request a .openSeat)) [.openSeat] (requestChecks a .openSeat s.backend))
    (call : ∀ r a, s.control = .app → r ≠ .ping → motive (.call r a) (s.enter (Libseat.call a r))
      (if s.backend.error ∨ refuses r then [] else [r])
      (if s.backend.error ∨ refuses r then [] else requestChecks a r s.backend))
    (dispatch : ∀ timeout a, s.control = .app → motive (.dispatch timeout a)
      (s.enter (Libseat.dispatch a timeout)) []
      (if s.backend.error then [] else [.queue a s.backend]))
    (wake : ∀ a r, s.control = .waiting r →
      motive (.wake a) (s.enter (Libseat.wake a r)) [] (wakeChecks a r s.backend))
    (events : ∀ m b list executed k, s.control = .app ∨ s.control = .executing k →
      b.error = s.backend.error → (∀ ch s₀ n x, s.backend.Upto ch s₀ n x → b.Upto ch s₀ n x) →
      (∀ ch, m.answers.Delivers ch s.backend → m.answers.Delivers ch b) →
      motive m ({ s with backend := b }.executeEvents m.answers list executed k) []
        (executeChecks m.answers list executed b k)) :
    motive m (s.step m) (s.asks m) (s.checks m) := by
  cases m with
  | call r a =>
      cases hcontrol : s.control <;> cases r <;>
        simp only [Session.step, Session.asks, Session.checks, hcontrol]
      all_goals first
        | exact same
        | exact openSeat a hcontrol
        | exact call _ a hcontrol (by simp)
  | dispatch timeout a =>
      cases hcontrol : s.control <;> simp only [Session.step, Session.asks, Session.checks, hcontrol]
      all_goals first
        | exact same
        | exact dispatch timeout a hcontrol
  | wake a =>
      cases hcontrol : s.control <;> simp only [Session.step, Session.asks, Session.checks, hcontrol]
      all_goals first
        | exact same
        | exact wake a _ hcontrol
  | execute a =>
      cases hcontrol : s.control <;> simp only [Session.step, Session.asks, Session.checks, hcontrol]
      all_goals first
        | exact same
        | exact events (.execute a) _ _ _ _ (.inr hcontrol) rfl
            (fun _ _ _ _ hupto => hupto.same rfl rfl rfl rfl) fun _ hdelivers => hdelivers
  | callbackReturn a =>
      cases hcontrol : s.control <;> cases hframes : s.backend.frames <;>
        simp only [Session.step, Session.asks, Session.checks, hcontrol, hframes]
      all_goals first
        | exact same
        | exact events (.callbackReturn a) _ _ _ _ (.inl hcontrol) rfl
            (fun _ _ _ _ hupto => hupto.same rfl rfl rfl rfl) fun _ hdelivers => hdelivers

/-- **Every move keeps requests and responses in step, and nothing the library insists on is
missing.** -/
theorem Session.Exchanging.move {s : Session} {ch : Channel} {s₀ : List Segment}
    {asked : List Request} (h : s.Exchanging ch s₀ asked) (hserves : ch.Serves asked)
    {m : Move} (hresponds : m.answers.Responds) (hdelivers : m.answers.Delivers ch s.backend) :
    ((∀ r a, m = .call r a → r.Typed) →
        (s.step m).Ended ∨ (s.step m).Exchanging ch s₀ (asked ++ s.asks m))
      ∧ ∀ check ∈ s.checks m, check.Passes := by
  obtain ⟨reqs, hvalid, hasked, hstate⟩ := id h
  have hnone : ∀ check ∈ ([] : List Check), check.Passes := fun _ hno => by cases hno
  induction m using Session.checks_cases (s := s) with
  | same =>
      rw [List.append_nil]
      exact ⟨fun _ => .inr h, hnone⟩
  | openSeat a hcontrol =>
      rw [hcontrol] at hstate
      exact ⟨fun _ => Session.exchanging_request hserves hvalid hasked hstate trivial (by simp),
        requestChecks_pass hstate (hserves.more [.openSeat]) List.length_append
          List.getElem?_concat_length (by simp)⟩
  | call r a hcontrol hping =>
      rw [hcontrol] at hstate
      refine ⟨fun htyped => Session.exchanging_call hserves hvalid hasked hstate (htyped r a rfl)
        hping, ?_⟩
      split_ifs with hrefused
      · exact hnone
      · exact requestChecks_pass (hstate.resolve_left fun he => hrefused (.inl he))
          (hserves.more [r]) List.length_append List.getElem?_concat_length hping
  | dispatch timeout a hcontrol =>
      rw [hcontrol] at hstate
      rw [List.append_nil]
      refine ⟨fun _ => Session.exchanging_enter_quiet hvalid hasked
        (dispatch_quiet hserves le_rfl timeout s.backend hstate), ?_⟩
      split_ifs
      · exact hnone
      · intro check hmem
        rw [List.mem_singleton.mp hmem]
        exact queueCheck_of_state hstate hserves le_rfl
  | wake a r hcontrol =>
      rw [hcontrol] at hstate
      obtain ⟨hping, done, rfl, hupto⟩ := hstate
      have hlast : (done ++ [r])[done.length]? = some r := List.getElem?_concat_length
      rw [List.append_nil]
      exact ⟨fun _ => Session.exchanging_enter hvalid hasked hping
          (wake_exchanges hserves List.length_append hlast hping hresponds s.backend
            ⟨hupto, hdelivers⟩),
        wakeChecks_pass hupto hserves List.length_append hlast hping hresponds hdelivers⟩
  | events m b list executed k hcontrol herror hupto hring =>
      have hb : b.error = true ∨ b.Upto ch s₀ asked.length (reqs.flatMap Request.bytes) := by
        rw [herror]
        refine Or.imp id (hupto _ _ _ _) ?_
        rcases hcontrol with hcontrol | hcontrol <;> rwa [hcontrol] at hstate
      rw [List.append_nil]
      exact ⟨fun _ => Session.exchanging_executeEvents (s := { s with backend := b }) hserves hvalid
          hasked hb hresponds (hring ch hdelivers) _ _ _,
        executeChecks_pass hb hserves le_rfl hresponds (hring ch hdelivers) _ _ _⟩

end Libseat

end DdeSeatd
