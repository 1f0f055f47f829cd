import DdeSeatd.Reading

set_option autoImplicit false

/-! # Framing does not depend on chunking

A client sends a stream of bytes; how many of them a read delivers, how often it is interrupted
and what else the daemon does in between is chosen by the environment. `framing_of_chunks` says
that the handler calls and the fate of the client are those of the reference parser of the whole
stream, as long as no handler fails.
-/

namespace DdeSeatd

open RingBuffer Framer

/-! ## A client that sends a stream -/

/-- One answer of `recvmsg` on a stream socket that works. -/
inductive Delivery where
  | interrupted
  | again
  | bytes (len : Nat)
  deriving DecidableEq, Repr

/-- The answer of `recvmsg` for a buffer of `room` bytes. -/
def Delivery.result (room : Nat) (unread : List UInt8) : Delivery → RecvResult
  | .interrupted => .fail EINTR
  | .again => .fail EAGAIN
  | .bytes len => .data (unread.take (takenLen len (min room unread.length))) []

/-- What is left in the socket after one `connection_read`, which does not call `recvmsg` if it
has no room. -/
def unreadAfter (room : Nat) (unread : List UInt8) (answer : RecvResult) : List UInt8 :=
  match room, answer with
  | _ + 1, .data bytes _ => unread.drop bytes.length
  | _, _ => unread

/-- The daemon, the bytes a client has sent and the daemon has not read, and the handler calls
made for the client so far. -/
structure Feed where
  server : Server
  unread : List UInt8
  calls : List (Request × Bool)

inductive FeedMove where
  | readable (answers : List Delivery)
  | other (st : Step)
  deriving DecidableEq, Repr

/-- Whether the step stands for input from the client. -/
def Step.isInput (c : ClientId) : Step → Bool
  | .request o _ | .disconnect o => o = c
  | _ => false

/-- The poller reports EVENT_READABLE for the client only while there is something to read; the
other steps are those that do not take input from the client. -/
def Feed.step (k : Kernel) (c : ClientId) (f : Feed) : FeedMove → Feed
  | .readable answers =>
      if f.unread = [] ∨ c ∉ f.server.live then f
      else
        let room := CONNECTION_BUFFER_SIZE - connectionPending (f.server.clients c).connection
        let results := answers.map (Delivery.result room f.unread)
        let h := clientHandleConnection k f.server c EVENT_READABLE results
        { server := h.server
          unread := unreadAfter room f.unread (recvmsgLoop results)
          calls := f.calls ++ h.calls }
  | .other st => if st.isInput c then f else { f with server := DdeSeatd.step k f.server st }

/-- Writing to the client fails, and it is destroyed for that. -/
def FeedMove.WriteFails (k : Kernel) (c : ClientId) (f : Feed) (m : FeedMove) : Prop :=
  m = .other (.writable c) ∧ c ∉ (f.step k c m).server.live

/-- The daemon agrees with the reference parser: about the bytes read so far if the client is
there, and about the whole stream if it was destroyed. -/
def Feed.Agrees (c : ClientId) (stream : List UInt8) (f : Feed) : Prop :=
  if c ∈ f.server.live then
    ∃ read, stream = read ++ f.unread
      ∧ parse requestFrame read = ⟨f.calls.map Prod.fst, false, arrived f.server c⟩
  else
    (parse requestFrame stream).frames = f.calls.map Prod.fst
      ∧ (parse requestFrame stream).bad = true

/-! ## One call -/

theorem recvmsgLoop_deliveries (answers : List Delivery) (room : Nat) (unread : List UInt8) :
    recvmsgLoop (answers.map (Delivery.result room unread)) = .fail EAGAIN
    ∨ ∃ len, recvmsgLoop (answers.map (Delivery.result room unread))
        = .data (unread.take (takenLen len (min room unread.length))) [] := by
  induction answers with
  | nil => exact .inl rfl
  | cons a answers ih =>
      cases a with
      | interrupted => exact ih
      | again => exact .inl rfl
      | bytes len => exact .inr ⟨len, rfl⟩

/-- **One `connection_read`.** A ring that is full already fails it; otherwise it moves a piece of
the stream into the ring, which is empty only at the end of the stream or if there is nothing to
read now. -/
theorem connectionRead_deliveries {conn : Connection}
    (hring : conn.inp.size ≤ CONNECTION_BUFFER_SIZE) (unread : List UInt8)
    (answers : List Delivery) :
    let room := CONNECTION_BUFFER_SIZE - connectionPending conn
    let results := answers.map (Delivery.result room unread)
    let left := unreadAfter room unread (recvmsgLoop results)
    (conn.inp.size = CONNECTION_BUFFER_SIZE ∧ left = unread
      ∧ connectionRead conn results = (.error EOVERFLOW, conn, []))
    ∨ ∃ ret inp bytes, connectionRead conn results = (ret, { conn with inp := inp }, [])
      ∧ unread = bytes ++ left ∧ inp.toList = conn.inp.toList ++ bytes
      ∧ inp.size ≤ CONNECTION_BUFFER_SIZE
      ∧ (ret = .error EAGAIN ∧ recvmsgLoop results = .fail EAGAIN
        ∨ ret = .ok inp.size ∧ (unread ≠ [] → bytes ≠ [])) := by
  intro room results left
  have hroom : room = CONNECTION_BUFFER_SIZE - conn.inp.size := rfl
  by_cases hfull : CONNECTION_BUFFER_SIZE ≤ conn.inp.size
  · refine .inl ⟨by omega, ?_, connectionRead_full conn results hfull⟩
    show unreadAfter room unread _ = unread
    rw [show room = 0 by omega]
    rfl
  right
  have hroom1 : room = (room - 1) + 1 := by omega
  rcases recvmsgLoop_deliveries answers room unread with hrecv | ⟨len, hrecv⟩
  · -- nothing to read now
    have hrecv' : recvmsgLoop results = .fail EAGAIN := hrecv
    refine ⟨_, conn.inp, [], connectionRead_fail conn (by omega) hrecv', ?_,
      (List.append_nil _).symm, hring, .inl ⟨rfl, hrecv'⟩⟩
    show unread = [] ++ unreadAfter room unread (recvmsgLoop results)
    rw [hrecv', hroom1]
    rfl
  · set bytes := unread.take (takenLen len (min room unread.length)) with hbytes
    have hrecv' : recvmsgLoop results = .data bytes [] := hrecv
    have hbl : bytes.length = min (max len 1) (min room unread.length) := by
      rw [hbytes, List.length_take, takenLen]
      omega
    have hfit : conn.inp.size + bytes.length ≤ CONNECTION_BUFFER_SIZE := by omega
    have hsize := size_push size_lt conn.inp hfit
    refine ⟨_, conn.inp.push bytes, bytes, connectionRead_data conn (by omega) hrecv' (by omega), ?_,
      toList_push size_dvd size_lt conn.inp hfit, hsize.trans_le hfit,
      .inr ⟨congrArg _ hsize.symm, fun hsome hnil => ?_⟩⟩
    · show unread = bytes ++ unreadAfter room unread (recvmsgLoop results)
      rw [hrecv', hroom1]
      show unread = bytes ++ unread.drop bytes.length
      rw [hbl, hbytes, takenLen, List.take_append_drop]
    · have hpos := List.length_pos_iff.mpr hsome
      rw [hnil, List.length_nil] at hbl
      omega

/-- A handler failed. -/
def Feed.Failed (f : Feed) : Prop := ∃ x ∈ f.calls, x.2 = false

/-- What holds between the moves of a feed. -/
structure Feed.Inv (c : ClientId) (stream : List UInt8) (f : Feed) : Prop where
  kept : f.server.Kept
  old : c < f.server.nextClientId
  ring : c ∈ f.server.live → (arrived f.server c).length ≤ CONNECTION_BUFFER_SIZE
  gone : f.Failed → c ∉ f.server.live
  calls : f.calls.map Prod.fst <+: (parse requestFrame stream).frames
  agrees : f.Failed ∨ f.Agrees c stream

section

variable {k : Kernel} {c : ClientId} {stream : List UInt8}

theorem clientHandleConnection_readable (s : Server) (results : List RecvResult) :
    clientHandleConnection k s c EVENT_READABLE results
      = ⟨(clientHandleReadable k s c results).calls, (clientHandleReadable k s c results).ok,
          (clientHandleReadable k s c results).finish k c⟩ := by
  have herror : ¬ EVENT_READABLE &&& EVENT_ERROR ≠ 0 := by decide
  have hhangup : ¬ EVENT_READABLE &&& EVENT_HANGUP ≠ 0 := by decide
  have hwritable : ¬ EVENT_READABLE &&& EVENT_WRITABLE ≠ 0 := by decide
  have hreadable : EVENT_READABLE &&& EVENT_READABLE ≠ 0 := by decide
  unfold clientHandleConnection
  simp only [if_neg herror, if_neg hhangup, if_neg hwritable, if_pos hreadable]
  rw [if_neg fun hc => hwritable hc.1, if_neg Bool.false_ne_true]
  unfold Handled.finish
  cases hok : (clientHandleReadable k s c results).ok with
  | true => rw [if_pos rfl, if_pos rfl, ← hok]
  | false => rw [if_neg Bool.false_ne_true, if_neg Bool.false_ne_true]

/-- **One EVENT_READABLE call** reads a piece of the stream and handles the frames that are then
in the ring; a ring that is full already is fatal. -/
theorem clientHandleReadable_cases {s : Server} (hring : (arrived s c).length ≤ CONNECTION_BUFFER_SIZE)
    {unread : List UInt8} (hunread : unread ≠ []) (answers : List Delivery) :
    let room := CONNECTION_BUFFER_SIZE - connectionPending (s.clients c).connection
    let results := answers.map (Delivery.result room unread)
    (∃ s₁, Inputs (.client c) s s₁ ∧ (arrived s c).length = CONNECTION_BUFFER_SIZE
      ∧ unreadAfter room unread (recvmsgLoop results) = unread
      ∧ clientHandleReadable k s c results = ⟨[], false, s₁⟩)
    ∨ ∃ s₁ bytes turns, Inputs (.client c) s s₁
        ∧ unread = bytes ++ unreadAfter room unread (recvmsgLoop results)
        ∧ arrived s₁ c = arrived s c ++ bytes ∧ (arrived s₁ c).length ≤ CONNECTION_BUFFER_SIZE
        ∧ (arrived s₁ c).length < turns
        ∧ clientHandleReadable k s c results = clientHandleFrames k c turns s₁
        ∧ (∀ len, recvmsgLoop results = Delivery.result room unread (.bytes len) → bytes ≠ []) := by
  intro room results
  have hlen : (arrived s c).length = (s.clients c).connection.inp.size := toList_length _
  unfold clientHandleReadable
  rcases connectionRead_deliveries (hlen.symm.trans_le hring) unread answers with
    ⟨hfull, hleft, hread⟩ | ⟨ret, inp, bytes, hread, hsplit, harr, hsize, hret⟩
  · -- EOVERFLOW
    rw [hread]
    exact .inl ⟨_, (Inputs.received s _ _).trans (.setErrno _ _ EOVERFLOW),
      hlen.trans hfull, hleft, if_pos (by decide : EOVERFLOW ≠ EAGAIN)⟩
  right
  rw [hread]
  set conn : Connection := { (s.clients c).connection with inp := inp } with hconn
  have hin := Inputs.received s (.client c) inp
  have harr' : arrived ((s.setConnection (.client c) conn).record (.fdsClosed (.client c) [])) c
      = inp.toList :=
    congrArg (fun x : Connection => x.inp.toList) (connection_setConnection s (.client c) conn)
  have hlen' := (congrArg List.length harr').trans (toList_length inp)
  rcases hret with ⟨rfl, hfail⟩ | ⟨rfl, hsome⟩
  · exact ⟨_, bytes, inp.size + 1, hin.trans (.setErrno _ _ EAGAIN), hsplit, harr'.trans harr,
      hlen'.trans_le hsize, hlen'.trans_lt (Nat.lt_succ_self _),
      if_neg (not_not.mpr rfl : ¬ EAGAIN ≠ EAGAIN),
      fun len hdata => by rw [show recvmsgLoop results = _ from hfail] at hdata; cases hdata⟩
  · have hpos : inp.size ≠ 0 := by
      have hbytes := List.length_pos_iff.mpr (hsome hunread)
      rw [← toList_length, harr, List.length_append]
      omega
    exact ⟨_, bytes, inp.size + 1, hin, hsplit, harr'.trans harr, hlen'.trans_le hsize,
      hlen'.trans_lt (Nat.lt_succ_self _), if_neg hpos, fun _ _ => hsome hunread⟩

/-! ## Moves -/

/-- A step that does not take input from the client keeps it, unless writing to it fails. -/
theorem live_other {s : Server} (h : s.Kept) (hlive : c ∈ s.live) {st : Step}
    (hst : st.isInput c = false) : st = .writable c ∨ c ∈ (step k s st).live := by
  obtain ⟨ts, hclient, -, hpresent⟩ := step_client (k := k) h c st
  unfold ClientTalks at hclient
  split_ifs at hclient with hown
  · match st, hown.1, hst with
    | .request _ r, rfl, hst => simp [Step.isInput] at hst
    | .writable _, rfl, _ => exact .inl rfl
    | .disconnect _, rfl, hst => simp [Step.isInput] at hst
  · right
    rcases hclient with ⟨hhail, -⟩ | ⟨heq, -⟩
    · refine hpresent.mpr ?_
      rcases hhail with hnil | ⟨x, m, ok, -, -, hone⟩
      · rw [hnil]
        exact hlive
      · rw [hone]
        exact hlive
    · exact absurd heq (h.peers.liveFresh c hlive).ne

/-- What has arrived while the client is there is the beginning of a frame. -/
theorem Feed.Inv.wait {f : Feed} (h : f.Inv c stream)
    (hlive : c ∈ f.server.live) : requestFrame (arrived f.server c) = .wait := by
  have hagrees := h.agrees.resolve_left fun hf => h.gone hf hlive
  unfold Feed.Agrees at hagrees
  rw [if_pos hlive] at hagrees
  obtain ⟨read, -, hparse⟩ := hagrees
  have hrest := parse_rest requestFrame_lawful read (by rw [hparse])
  rwa [hparse] at hrest

/-- One EVENT_READABLE call keeps the invariant. -/
theorem Feed.Inv.call {f : Feed} (h : f.Inv c stream) (hunread : f.unread ≠ [])
    (hlive : c ∈ f.server.live) (answers : List Delivery) :
    (f.step k c (.readable answers)).Inv c stream := by
  have hnone : ¬ f.Failed := fun hf => h.gone hf hlive
  have hwait := h.wait hlive
  have hagrees := h.agrees.resolve_left hnone
  unfold Feed.Agrees at hagrees
  rw [if_pos hlive] at hagrees
  obtain ⟨read, hstream, hparse⟩ := hagrees
  have hstep : f.step k c (.readable answers) = _ :=
    if_neg (not_or.mpr ⟨hunread, not_not.mpr hlive⟩)
  rw [hstep, clientHandleConnection_readable]
  rcases clientHandleReadable_cases (k := k) (h.ring hlive) hunread answers with
    ⟨s₁, hin, hfull, hsame, hres⟩ | ⟨s₁, bytes, turns, hin, hsplit, harr, hring, hturns, hres, -⟩
  · -- the ring is full, and there is more: the frame does not fit
    rw [hres, hsame, List.append_nil]
    have hlive₁ : c ∈ s₁.live := hin.live ▸ hlive
    have hkept₁ := hin.kept h.kept
    have hgone : c ∉ (Handled.finish k c ⟨[], false, s₁⟩).live :=
      not_live_clientDestroy hkept₁.wf hkept₁.sound hkept₁.peers
    have hbad := parse_bad (requestFrame_full hfull hwait hunread)
    refine ⟨?_, ?_, fun hl => absurd hl hgone, fun _ => hgone, h.calls, .inr ?_⟩
    · show (clientDestroy k s₁ c).Kept
      rw [← step_disconnect hlive₁]
      exact kept_step hkept₁ _
    · show c < (clientDestroy k s₁ c).nextClientId
      rw [← step_disconnect hlive₁]
      exact (hkept₁.peers.liveFresh c hlive₁).trans_le (nextClientId_step hkept₁ _)
    · unfold Feed.Agrees
      rw [if_neg hgone, hstream, parse_more requestFrame_lawful hparse, hbad]
      exact ⟨List.append_nil _, rfl⟩
  · rw [hres]
    set handled := clientHandleFrames k c turns s₁ with hhandled
    set rest := unreadAfter (CONNECTION_BUFFER_SIZE - connectionPending (f.server.clients c).connection)
      f.unread (recvmsgLoop (answers.map (Delivery.result
        (CONNECTION_BUFFER_SIZE - connectionPending (f.server.clients c).connection) f.unread)))
    have hlive₁ : c ∈ s₁.live := hin.live ▸ hlive
    have hkept₁ := hin.kept h.kept
    have hlen : (s₁.clients c).connection.inp.size = (arrived s₁ c).length := (toList_length _).symm
    have hpar : Parses k c s₁ handled :=
      clientHandleFrames_parses turns hkept₁ hlive₁ (hlen ▸ hring) (hlen ▸ hturns)
    -- the calls made now are the next of the reference
    have hcalls : ∀ {rs : List Request}, rs <+: (parse requestFrame (arrived s₁ c)).frames →
        f.calls.map Prod.fst ++ rs <+: (parse requestFrame stream).frames := by
      intro rs hrs
      rw [hstream, parse_more requestFrame_lawful hparse]
      refine (List.prefix_append_right_inj _).mpr (hrs.trans ?_)
      rw [harr]
      conv_rhs => rw [hsplit, ← List.append_assoc]
      exact parse_frames_mono requestFrame_lawful _ _
    have hkept : (handled.finish k c).Kept := by
      rcases hpar.reading with hread | ⟨-, hread⟩ <;> exact hread.kept hkept₁
    have hold : c < (handled.finish k c).nextClientId := by
      refine (hkept₁.peers.liveFresh c hlive₁).trans_le ?_
      rcases hpar.reading with hread | ⟨-, hread⟩ <;> exact hread.nextClientId hkept₁
    cases hok : handled.ok with
    | true =>
        obtain ⟨hall, hframes, hsize⟩ := hpar.ok hok
        have hhere : c ∈ (handled.finish k c).live := hpar.live.mpr hok
        refine ⟨hkept, hold, fun _ => hsize, fun ⟨x, hx, hx2⟩ => ?_, ?_, .inr ?_⟩
        · rcases List.mem_append.mp hx with hx | hx
          · exact absurd ⟨x, hx, hx2⟩ hnone
          · rw [hall x hx] at hx2
            cases hx2
        · rw [List.map_append]
          exact hcalls (by rw [hframes])
        · unfold Feed.Agrees
          rw [if_pos hhere]
          refine ⟨read ++ bytes, ?_, ?_⟩
          · rw [List.append_assoc, ← hsplit]
            exact hstream
          · rw [parse_more requestFrame_lawful hparse, ← harr, hframes, List.map_append]
    | false =>
        have hgone : c ∉ (handled.finish k c).live := fun hl => by
          rw [hpar.live, hok] at hl
          cases hl
        obtain ⟨hpre, hbad⟩ := hpar.fail hok
        refine ⟨hkept, hold, fun hl => absurd hl hgone, fun _ => hgone, ?_, ?_⟩
        · rw [List.map_append]
          exact hcalls hpre
        by_cases hall : ∀ x ∈ handled.calls, x.2 = true
        · right
          obtain ⟨hb, hframes⟩ := hbad hall
          obtain ⟨hframes', hb'⟩ := parse_append_bad requestFrame_lawful (arrived s₁ c) rest hb
          unfold Feed.Agrees
          rw [if_neg hgone, hstream, parse_more requestFrame_lawful hparse, hsplit,
            ← List.append_assoc, ← harr, hframes', hb', hframes, List.map_append]
          exact ⟨rfl, rfl⟩
        · left
          obtain ⟨x, hx⟩ := not_forall.mp hall
          obtain ⟨hx, hx2⟩ := Classical.not_imp.mp hx
          exact ⟨x, List.mem_append_right _ hx, Bool.eq_false_iff.mpr hx2⟩

theorem Feed.Inv.move {f : Feed} (h : f.Inv c stream) (m : FeedMove)
    (hm : ¬ m.WriteFails k c f) : (f.step k c m).Inv c stream := by
  cases m with
  | readable answers =>
      by_cases hgo : f.unread = [] ∨ c ∉ f.server.live
      · rw [show f.step k c (.readable answers) = f from if_pos hgo]
        exact h
      · rw [not_or, not_not] at hgo
        exact h.call hgo.1 hgo.2 answers
  | other st =>
      by_cases hst : st.isInput c = true
      · rw [show f.step k c (.other st) = f from if_pos hst]
        exact h
      · have hstep : f.step k c (.other st) = { f with server := DdeSeatd.step k f.server st } :=
          if_neg hst
        have hkept : (DdeSeatd.step k f.server st).Kept := kept_step h.kept st
        have hold := h.old.trans_le (nextClientId_step (k := k) h.kept st)
        by_cases hlive : c ∈ f.server.live
        · -- the client stays, and nobody reads from its connection
          have hhere : c ∈ (DdeSeatd.step k f.server st).live := by
            rcases live_other (k := k) h.kept hlive (Bool.eq_false_iff.mpr hst) with rfl | hhere
            · by_contra hgone
              exact hm ⟨rfl, by rw [hstep]; exact hgone⟩
            · exact hhere
          have harr : arrived (DdeSeatd.step k f.server st) c = arrived f.server c :=
            congrArg toList (step_inp h.kept hlive st)
          rw [hstep]
          refine ⟨hkept, hold, fun _ => ?_, fun hf => absurd hlive (h.gone hf), h.calls, ?_⟩
          · rw [harr]
            exact h.ring hlive
          · refine h.agrees.imp_right fun hagrees => ?_
            unfold Feed.Agrees at hagrees ⊢
            rw [if_pos hlive] at hagrees
            rw [if_pos hhere, harr]
            exact hagrees
        · have hgone : c ∉ (DdeSeatd.step k f.server st).live := not_live_step h.kept h.old hlive st
          rw [hstep]
          refine ⟨hkept, hold, fun hl => absurd hl hgone, fun _ => hgone, h.calls, ?_⟩
          refine h.agrees.imp_right fun hagrees => ?_
          unfold Feed.Agrees at hagrees ⊢
          rw [if_neg hlive] at hagrees
          rw [if_neg hgone]
          exact hagrees

end

/-! ## Whole streams -/

/-- Nothing but the handler of a peer's own input reads from its connection, so nothing has
arrived in a run in which input is taken in whole requests. -/
theorem inp_run (k : Kernel) (vtBound : Bool) (steps : List Step) (p : Peer) :
    ((run k vtBound steps).channel p).connection.inp.size = 0 := by
  let I : Server → Prop := fun s => s.Kept ∧ (s.channel p).connection.inp.size = 0
  suffices hinv : I (run k vtBound steps) from hinv.2
  have zero_inp : ConnectionBuffer.zero.size = 0 := rfl
  have hinit : ((serverInit vtBound).channel p).connection.inp.size = 0 := by
    cases p <;> exact zero_inp
  refine Run.run_invariant (P := I) ?_ ⟨kept_init vtBound, hinit⟩ steps
  rintro s st ⟨hkept, hsize⟩
  obtain ⟨ts, htalk, -⟩ := step_dialogue k s hkept.wf st
  refine ⟨kept_step hkept st, ?_⟩
  refine ((htalk.spec hkept.sound).effects p).invariant
    (I := fun ch => ch.connection.inp.size = 0) ?_ hsize
  intro t _ ch ch' ht hch
  match t with
  | .accept q => rw [show ch' = _ from ht]; exact zero_inp
  | .frame .. | .device .. | .event .. | .flush .. | .message .. | .drain .. | .close .. =>
      rw [Talk.Effect.inp ht (by simp)]
      exact hch

theorem arrived_run (k : Kernel) (vtBound : Bool) (steps : List Step) (c : ClientId) :
    arrived (run k vtBound steps) c = [] :=
  toList_of_size (inp_run k vtBound steps (.client c))

/-- The feed before anything of the stream has been read. -/
def feedInit (k : Kernel) (vtBound : Bool) (steps : List Step) (stream : List UInt8) : Feed :=
  ⟨run k vtBound steps, stream, []⟩

def feedRun (k : Kernel) (c : ClientId) (f : Feed) (moves : List FeedMove) : Feed :=
  Run.run (Feed.step k c) f moves

/-- No move of the run is one in which writing to the client fails. -/
def Writes (k : Kernel) (c : ClientId) (f : Feed) (moves : List FeedMove) : Prop :=
  Run.Meets (Feed.step k c) (fun f m => ¬ m.WriteFails k c f) f moves

instance FeedMove.writeFailsDecidable (k : Kernel) (c : ClientId) (f : Feed) (m : FeedMove) :
    Decidable (m.WriteFails k c f) :=
  inferInstanceAs (Decidable (_ ∧ _))

instance Writes.decidable (k : Kernel) (c : ClientId) (f : Feed) (moves : List FeedMove) :
    Decidable (Writes k c f moves) :=
  inferInstanceAs (Decidable (Run.Meets _ _ _ _))

section

variable {k : Kernel} {vtBound : Bool} {steps : List Step} {c : ClientId} {stream : List UInt8}

theorem feedInit_inv (hlive : c ∈ (run k vtBound steps).live) :
    (feedInit k vtBound steps stream).Inv c stream := by
  have hkept := kept_run k vtBound steps
  have harr := arrived_run k vtBound steps c
  refine ⟨hkept, hkept.peers.liveFresh c hlive, fun _ => ?_, fun ⟨_, hx, _⟩ => (nomatch hx),
    List.nil_prefix, .inr ?_⟩
  · show (arrived (run k vtBound steps) c).length ≤ _
    rw [harr]
    exact Nat.zero_le _
  · unfold Feed.Agrees
    rw [if_pos (show c ∈ (feedInit k vtBound steps stream).server.live from hlive)]
    refine ⟨[], rfl, ?_⟩
    rw [show arrived (feedInit k vtBound steps stream).server c = [] from harr]
    rfl

theorem feedRun_inv {moves : List FeedMove} (hlive : c ∈ (run k vtBound steps).live)
    (hwrites : Writes k c (feedInit k vtBound steps stream) moves) :
    (feedRun k c (feedInit k vtBound steps stream) moves).Inv c stream :=
  Run.run_invariant_of_meets (P := Feed.Inv c stream) (fun _ m h hm => h.move m hm)
    (feedInit_inv hlive) moves hwrites

/-- A feed that has nothing more to read, or whose client was destroyed, agrees with the reference
parser about the whole stream. -/
theorem Feed.Agrees.done {f : Feed} (h : f.Agrees c stream)
    (hdone : f.unread = [] ∨ c ∉ f.server.live) :
    f.calls.map Prod.fst = (parse requestFrame stream).frames
      ∧ (c ∉ f.server.live ↔ (parse requestFrame stream).bad = true) := by
  unfold Feed.Agrees at h
  by_cases hlive : c ∈ f.server.live
  · rw [if_pos hlive] at h
    obtain ⟨read, hstream, hparse⟩ := h
    have hall : stream = read := by
      rw [hstream, hdone.resolve_right (not_not.mpr hlive), List.append_nil]
    rw [hall, hparse]
    exact ⟨rfl, fun hgone => absurd hlive hgone, fun hbad => nomatch hbad⟩
  · rw [if_neg hlive] at h
    exact ⟨h.1.symm, fun _ => h.2, fun _ => hlive⟩

/-- `recvmsg` is called again after an interrupt. -/
theorem recvmsgLoop_interrupted (eintrs len room : Nat) (unread : List UInt8) :
    recvmsgLoop ((List.replicate eintrs Delivery.interrupted ++ [Delivery.bytes len]).map
      (Delivery.result room unread)) = Delivery.result room unread (.bytes len) := by
  induction eintrs with
  | zero => rfl
  | succ n ih => exact ih

/-- **Progress.** A call whose read is interrupted any number of times and then delivers something
takes a piece of the stream, or destroys the client. -/
theorem Feed.Inv.progress {f : Feed} (h : f.Inv c stream) (hunread : f.unread ≠ [])
    (hlive : c ∈ f.server.live) (eintrs len : Nat) :
    let f' := f.step k c (.readable (List.replicate eintrs .interrupted ++ [.bytes len]))
    c ∉ f'.server.live ∨ f'.unread.length < f.unread.length := by
  intro f'
  set answers := List.replicate eintrs Delivery.interrupted ++ [.bytes len] with hanswers
  have hstep : f' = _ := if_neg (not_or.mpr ⟨hunread, not_not.mpr hlive⟩)
  rw [hstep, clientHandleConnection_readable]
  rcases clientHandleReadable_cases (k := k) (h.ring hlive) hunread answers with
    ⟨s₁, hin, -, -, hres⟩ | ⟨s₁, bytes, turns, -, hsplit, -, -, -, -, hbytes⟩
  · left
    rw [hres]
    have hkept₁ := hin.kept h.kept
    exact not_live_clientDestroy hkept₁.wf hkept₁.sound hkept₁.peers
  · right
    have hpos := List.length_pos_iff.mpr (hbytes len (recvmsgLoop_interrupted eintrs len _ _))
    have hlen := congrArg List.length hsplit
    rw [List.length_append] at hlen
    exact (Nat.lt_add_of_pos_left hpos).trans_eq hlen.symm

end

/-- **Framing does not depend on chunking.** In whatever pieces the stream of a connected client is
read, and whatever else the daemon does in between, the calls made to the handlers and what
becomes of the client are those of the reference parser, if no handler fails and writing to the
client does not either. The stream is read to its end if the socket goes on delivering. -/
theorem framing_of_chunks (k : Kernel) (vtBound : Bool) (steps : List Step) (c : ClientId)
    (hlive : c ∈ (run k vtBound steps).live) (stream : List UInt8) (moves : List FeedMove)
    (hwrites : Writes k c (feedInit k vtBound steps stream) moves)
    (hhandlers : ∀ call ∈ (feedRun k c (feedInit k vtBound steps stream) moves).calls,
      call.2 = true) :
    let f := feedRun k c (feedInit k vtBound steps stream) moves
    f.Agrees c stream
      ∧ (f.unread = [] ∨ c ∉ f.server.live →
          f.calls.map Prod.fst = (parse requestFrame stream).frames
            ∧ (c ∉ f.server.live ↔ (parse requestFrame stream).bad = true))
      ∧ (f.unread ≠ [] → c ∈ f.server.live → ∀ eintrs len,
          let f' := f.step k c (.readable (List.replicate eintrs .interrupted ++ [.bytes len]))
          c ∉ f'.server.live ∨ f'.unread.length < f.unread.length) := by
  intro f
  have hinv : f.Inv c stream := feedRun_inv hlive hwrites
  have hagrees : f.Agrees c stream := by
    refine hinv.agrees.resolve_left ?_
    rintro ⟨call, hmem, hfailed⟩
    rw [hhandlers call hmem] at hfailed
    cases hfailed
  exact ⟨hagrees, hagrees.done, hinv.progress⟩

/-- PING and OPEN_SEAT, read in pieces that end inside a header, followed by a frame with an
unknown opcode. -/
theorem framing_of_three_frames :
    let stream := Request.ping.parts.flatten ++ Request.openSeat.parts.flatten ++ [9, 0, 0, 0]
    let moves : List FeedMove := [.readable [.bytes 3], .other (.connect 101),
      .readable [.interrupted, .bytes 4], .readable [.again], .readable [.bytes 4],
      .readable [.bytes 1]]
    let f := feedRun (.obliging 1) 0 (feedInit (.obliging 1) true [.connect 100] stream) moves
    f.calls.map Prod.fst = (parse requestFrame stream).frames
      ∧ f.calls = [(.ping, true), (.openSeat, true)] ∧ 0 ∉ f.server.live := by
  intro stream moves f
  have hdone : f.unread = [] ∧ f.calls = [(.ping, true), (.openSeat, true)]
      ∧ 0 ∉ f.server.live := by decide +kernel
  have hwrites : Writes (.obliging 1) 0 (feedInit (.obliging 1) true [.connect 100] stream) moves := by
    decide +kernel
  have hhandlers : ∀ call ∈ f.calls, call.2 = true := by
    rw [hdone.2.1]
    decide
  exact ⟨((framing_of_chunks (.obliging 1) true [.connect 100] 0 (by decide +kernel) stream moves
    hwrites hhandlers).2.1 (.inl hdone.1)).1, hdone.2⟩

/-! ## OPEN_DEVICE -/

/-- The stream can be read to its end, or until the client is destroyed. -/
theorem Feed.Inv.exists_done {k : Kernel} {c : ClientId} {stream : List UInt8} {f : Feed}
    (h : f.Inv c stream) : ∃ moves, Writes k c f moves
      ∧ ((feedRun k c f moves).unread = [] ∨ c ∉ (feedRun k c f moves).server.live) := by
  -- every call of a socket that delivers shortens what is unread
  induction hn : f.unread.length using Nat.strong_induction_on generalizing f with
  | _ n ih =>
      by_cases hdone : f.unread = [] ∨ c ∉ f.server.live
      · exact ⟨[], trivial, hdone⟩
      rw [not_or, not_not] at hdone
      set m : FeedMove := .readable [.bytes 1]
      have hwrite : ¬ m.WriteFails k c f := fun hm => nomatch hm.1
      rcases h.progress (k := k) hdone.1 hdone.2 0 1 with hgone | hless
      · exact ⟨[m], ⟨hwrite, trivial⟩, .inr hgone⟩
      · obtain ⟨moves, hwrites, hdone⟩ := ih _ (hn ▸ hless) (h.move m hwrite) rfl
        exact ⟨m :: moves, ⟨hwrite, hwrites⟩, hdone⟩

/-- **OPEN_DEVICE survives the wire**: behind any requests and before anything else, in whatever
pieces it is read, the request reaches its handler with the path that was sent, and the client is
not destroyed for what it sent, unless a handler fails or what follows is bad. -/
def SurvivesWire (path : CString) : Prop :=
  ∀ (k : Kernel) (vtBound : Bool) (steps : List Step) (c : ClientId) (before after : List UInt8)
    (moves : List FeedMove),
    let stream := before ++ (Request.openDevice path).parts.flatten ++ after
    let f := feedRun k c (feedInit k vtBound steps stream) moves
    let expected := (parse requestFrame before).frames ++ [.openDevice path]
    c ∈ (run k vtBound steps).live → (parse requestFrame before).bad = false →
    (parse requestFrame before).rest = [] → Writes k c (feedInit k vtBound steps stream) moves →
      f.calls.map Prod.fst <+: expected ++ (parse requestFrame after).frames
        ∧ (c ∉ f.server.live → f.Failed
            ∨ (parse requestFrame after).bad = true ∧ expected <+: f.calls.map Prod.fst)
        ∧ (c ∈ f.server.live → f.unread = [] → expected <+: f.calls.map Prod.fst)

section

variable {path : CString}

theorem openDevice_length (path : CString) :
    (Request.openDevice path).parts.flatten.length = PROTO_HEADER_SIZE + 2 + (path.length + 1) := by
  simp [Request.parts, frameParts, Request.payload, headerBytes, PROTO_HEADER_SIZE]
  omega

/-- The header and the payload of OPEN_DEVICE. -/
theorem openDevice_parts (path : CString) :
    (Request.openDevice path).parts.flatten = headerBytes 3 (2 + (path.length + 1))
      ++ (uint16Bytes (path.length + 1) ++ (path ++ [0])) := by
  simp [Request.parts, frameParts, Request.payload, Request.opcode]

theorem devicePath_payload (hnul : 0 ∉ path) (hlen : path.length + 1 ≤ MAX_PATH_LEN) :
    devicePath (uint16Bytes (path.length + 1) ++ (path ++ [0])) = some path := by
  have hmax : MAX_PATH_LEN = 256 := rfl
  have hdrop : (uint16Bytes (path.length + 1) ++ (path ++ [0])).drop 2 = path ++ [0] := rfl
  have hsize : bytesUint16 (uint16Bytes (path.length + 1) ++ (path ++ [0])) = path.length + 1 := by
    rw [bytesUint16_append (by simp), bytesUint16_uint16Bytes (by omega)]
  have hone : (path ++ [(0 : UInt8)]).length = path.length + 1 := by simp
  unfold devicePath
  simp only [hdrop, hsize, hone, List.getLast?_concat, List.dropLast_concat]
  exact if_pos ⟨by simp, trivial, hlen, trivial, hnul⟩

/-- The reference parser about an OPEN_DEVICE and what follows it. -/
theorem requestFrame_openDevice (hnul : 0 ∉ path) (hlen : path.length + 1 ≤ MAX_PATH_LEN)
    (after : List UInt8) :
    requestFrame ((Request.openDevice path).parts.flatten ++ after)
      = if PROTO_HEADER_SIZE + 2 + (path.length + 1) ≤ CONNECTION_BUFFER_SIZE then
          .frame (PROTO_HEADER_SIZE + 2 + (path.length + 1)) (.openDevice path)
        else .bad := by
  have hmax : MAX_PATH_LEN = 256 := rfl
  have hdr : PROTO_HEADER_SIZE = 4 := rfl
  have hcap : CONNECTION_BUFFER_SIZE = 256 := rfl
  set payload := uint16Bytes (path.length + 1) ++ (path ++ [0]) with hpayload
  have hplen : payload.length = 2 + (path.length + 1) := by simp [hpayload]
  set bytes := (Request.openDevice path).parts.flatten ++ after with hbytes
  have hlength : bytes.length = PROTO_HEADER_SIZE + 2 + (path.length + 1) + after.length := by
    rw [hbytes, List.length_append, openDevice_length]
  have hshape : bytes = headerBytes 3 (2 + (path.length + 1)) ++ (payload ++ after) := by
    rw [hbytes, openDevice_parts, List.append_assoc]
  have hop : bytesUint16 bytes = 3 := by rw [hshape]; rfl
  have hsize : bytesUint16 (bytes.drop 2) = 2 + (path.length + 1) := by
    rw [hshape]
    exact bytesUint16_uint16Bytes (v := 2 + (path.length + 1)) (by omega)
  have htake : (bytes.drop PROTO_HEADER_SIZE).take (2 + (path.length + 1)) = payload := by
    rw [hshape, ← hplen]
    exact List.take_left
  simp only [requestFrame, hop, hsize, htake, hlength]
  rw [if_neg (by omega)]
  by_cases hfit : PROTO_HEADER_SIZE + 2 + (path.length + 1) ≤ CONNECTION_BUFFER_SIZE
  · have hrequest : requestOf 3 payload = some (.openDevice path) := by
      simp only [requestOf, hpayload, devicePath_payload hnul hlen, Option.map_some]
    rw [if_pos hfit, if_neg (by omega), if_neg (by omega), hrequest]
    exact congrArg (Verdict.frame · _) (by omega)
  · rw [if_neg hfit, if_pos (by omega), if_pos (by omega)]

/-- The whole stream, if the request fits into the ring. -/
theorem parse_openDevice (hnul : 0 ∉ path) (hlen : path.length + 1 ≤ MAX_PATH_LEN)
    (hfit : PROTO_HEADER_SIZE + 2 + (path.length + 1) ≤ CONNECTION_BUFFER_SIZE)
    {before : List UInt8} (hbad : (parse requestFrame before).bad = false)
    (hrest : (parse requestFrame before).rest = []) (after : List UInt8) :
    let parsed := parse requestFrame (before ++ (Request.openDevice path).parts.flatten ++ after)
    parsed.frames = (parse requestFrame before).frames ++ [.openDevice path]
        ++ (parse requestFrame after).frames
      ∧ parsed.bad = (parse requestFrame after).bad := by
  have hframe := requestFrame_openDevice hnul hlen after
  rw [if_pos hfit] at hframe
  have hdrop : ((Request.openDevice path).parts.flatten ++ after).drop
      (PROTO_HEADER_SIZE + 2 + (path.length + 1)) = after := by
    rw [← openDevice_length]
    exact List.drop_left
  have hparse := parse_frame requestFrame_lawful hframe
  rw [hdrop] at hparse
  dsimp only
  rw [List.append_assoc, parse_append requestFrame_lawful before _ hbad, hrest, List.nil_append,
    hparse]
  exact ⟨by simp, rfl⟩

end

/-- **OPEN_DEVICE survives the wire exactly if it fits into the in ring**: header, length field and
path with its NUL have to be there at once. The library accepts longer paths. -/
theorem openDevice_survives_iff (path : CString) (hnul : 0 ∉ path)
    (hlen : path.length + 1 ≤ MAX_PATH_LEN) :
    SurvivesWire path ↔ PROTO_HEADER_SIZE + 2 + (path.length + 1) ≤ CONNECTION_BUFFER_SIZE := by
  constructor
  · -- a stream that is only this request is bad, and it can be read to its end
    intro hsurvives
    by_contra hfit
    set stream := [] ++ (Request.openDevice path).parts.flatten ++ [] with hstream
    have hbad : parse requestFrame stream = ⟨[], true, stream⟩ := by
      have hframe := requestFrame_openDevice hnul hlen []
      rw [if_neg hfit] at hframe
      exact parse_bad hframe
    have hlive : 0 ∈ (run (.obliging 1) true [.connect 100]).live := by decide +kernel
    have hinit : (feedInit (.obliging 1) true [.connect 100] stream).Inv 0 stream :=
      feedInit_inv hlive
    obtain ⟨moves, hwrites, hdone⟩ := hinit.exists_done (k := .obliging 1)
    set f := feedRun (.obliging 1) 0 (feedInit (.obliging 1) true [.connect 100] stream) moves
    have hinv : f.Inv 0 stream := feedRun_inv hlive hwrites
    obtain ⟨-, hdestroyed, -⟩ :=
      hsurvives (.obliging 1) true [.connect 100] 0 [] [] moves hlive rfl rfl hwrites
    have hnone : f.calls = [] := by
      have hpre := hinv.calls
      rw [hbad] at hpre
      exact List.map_eq_nil_iff.mp (List.prefix_nil.mp hpre)
    have hnotFailed : ¬ f.Failed := by
      rintro ⟨call, hmem, -⟩
      rw [hnone] at hmem
      cases hmem
    have hagrees := (hinv.agrees.resolve_left hnotFailed).done hdone
    rcases hdestroyed (hagrees.2.mpr (by rw [hbad])) with hfailed | ⟨hafter, -⟩
    · exact hnotFailed hfailed
    · cases hafter
  · intro hfit k vtBound steps c before after moves stream f expected hlive hbefore hrest hwrites
    obtain ⟨hframes, hbad⟩ := parse_openDevice hnul hlen hfit hbefore hrest after
    have hinv : f.Inv c stream := feedRun_inv hlive hwrites
    have hall : ∀ hdone : f.unread = [] ∨ c ∉ f.server.live, f.Agrees c stream →
        f.calls.map Prod.fst = expected ++ (parse requestFrame after).frames
          ∧ (c ∉ f.server.live → (parse requestFrame after).bad = true) := by
      intro hdone hagrees
      obtain ⟨hcalls, hgone⟩ := hagrees.done hdone
      exact ⟨hcalls.trans hframes, fun hdead => hbad ▸ hgone.mp hdead⟩
    refine ⟨hframes ▸ hinv.calls, fun hdead => ?_, fun hhere hread => ?_⟩
    · refine hinv.agrees.imp_right fun hagrees => ?_
      obtain ⟨hcalls, hgone⟩ := hall (.inr hdead) hagrees
      exact ⟨hgone hdead, hcalls ▸ List.prefix_append _ _⟩
    · have hagrees := hinv.agrees.resolve_left fun hfailed => hinv.gone hfailed hhere
      rw [(hall (.inl hread) hagrees).1]
      exact List.prefix_append _ _

/-- A path of 250 characters, which the library sends: the client is destroyed, and its request
has not been handled. -/
theorem openDevice_overflows :
    let path : CString := List.replicate 250 97
    let f := feedRun (.obliging 1) 0
      (feedInit (.obliging 1) true [.connect 100, .request 0 .openSeat]
        (Request.openDevice path).parts.flatten)
      [.readable [.bytes 256], .readable [.bytes 1]]
    path.length + 1 ≤ MAX_PATH_LEN ∧ f.calls = [] ∧ 0 ∉ f.server.live := by
  decide +kernel

theorem openDevice_card_survives :
    SurvivesWire (ascii ['/', 'd', 'e', 'v', '/', 'd', 'r', 'i', '/', 'c', 'a', 'r', 'd', '0']) :=
  (openDevice_survives_iff _ (by decide) (by decide)).mpr (by decide)

end DdeSeatd
