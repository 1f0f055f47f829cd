import DdeSeatd.ClientConnection
import DdeSeatd.StepDialogue
import DdeSeatd.Lib.Framer

set_option autoImplicit false

/-! # What a client's bytes mean

The reference parser of the seat socket: `requestFrame` cuts one request off a stream, and
`Framer.parse requestFrame` all of them. A frame is a header of four bytes and as many bytes as
the header says; one that does not fit into the ring is bad as soon as more has been sent of it
than the ring can hold.

The loop of `client_handle_connection` finds the frames of the reference parser in the ring
(`clientHandleFrames_parses`). Each is one step of the daemon: a call of `client_handle_connection`
is a sequence of requests, followed by a disconnect if the bytes were bad (`Reading`).
-/

namespace DdeSeatd

open RingBuffer Framer Labelled

/-! ## The reference parser -/

/-- The path in the payload of OPEN_DEVICE: its length, and that many bytes, of which the last
is the only NUL. -/
def devicePath (payload : List UInt8) : Option CString :=
  let path := payload.drop 2
  if 2 ≤ payload.length ∧ bytesUint16 payload = path.length ∧ path.length ≤ MAX_PATH_LEN
      ∧ path.getLast? = some 0 ∧ 0 ∉ path.dropLast then some path.dropLast
  else none

/-- The request with this opcode and payload. -/
def requestOf (opcode : Nat) (payload : List UInt8) : Option Request :=
  match opcode with
  | 1 => if payload = [] then some .openSeat else none
  | 2 => if payload = [] then some .closeSeat else none
  | 3 => (devicePath payload).map .openDevice
  | 4 => if payload.length = 4 then some (.closeDevice (bytesInt payload)) else none
  | 5 => if payload = [] then some .disableSeat else none
  | 6 => if payload.length = 4 then some (.switchSession (bytesInt payload)) else none
  | 7 => if payload = [] then some .ping else none
  | _ => none

/-- The first frame of a stream. -/
def requestFrame (bytes : List UInt8) : Verdict Request :=
  let size := bytesUint16 (bytes.drop 2)
  let total := PROTO_HEADER_SIZE + size
  if bytes.length < PROTO_HEADER_SIZE then .wait
  else if CONNECTION_BUFFER_SIZE < total then
    if CONNECTION_BUFFER_SIZE < bytes.length then .bad else .wait
  else if bytes.length < total then .wait
  else
    match requestOf (bytesUint16 bytes) ((bytes.drop PROTO_HEADER_SIZE).take size) with
    | some r => .frame total r
    | none => .bad

theorem bytesUint16_append {bs : List UInt8} (h : 2 ≤ bs.length) (more : List UInt8) :
    bytesUint16 (bs ++ more) = bytesUint16 bs := by
  match bs, h with
  | _ :: _ :: _, _ => rfl

theorem bytesUint16_take {bs : List UInt8} (h : 2 ≤ bs.length) :
    bytesUint16 (bs.take 2) = bytesUint16 bs := by
  match bs, h with
  | _ :: _ :: _, _ => rfl

/-- The fields of a header that has arrived. -/
theorem header_take {bs : List UInt8} (h : PROTO_HEADER_SIZE ≤ bs.length) :
    bytesUint16 (bs.take PROTO_HEADER_SIZE) = bytesUint16 bs
      ∧ bytesUint16 ((bs.take PROTO_HEADER_SIZE).drop 2) = bytesUint16 (bs.drop 2) := by
  match bs, h with
  | _ :: _ :: _ :: _ :: _, _ => exact ⟨rfl, rfl⟩

/-- The size field of a header that has arrived. -/
theorem size_append (bs more : List UInt8) (h : 4 ≤ bs.length) :
    bytesUint16 ((bs ++ more).drop 2) = bytesUint16 (bs.drop 2) := by
  rw [List.drop_append_of_le_length (by omega)]
  exact bytesUint16_append (by rw [List.length_drop]; omega) more

/-- What a header says about a payload. -/
def requestBody (header : List UInt8) (size : Nat) (payload : List UInt8) : Verdict Request :=
  match requestOf (bytesUint16 header) payload with
  | some r => .frame (PROTO_HEADER_SIZE + size) r
  | none => .bad

theorem requestFrame_eq : requestFrame = headed PROTO_HEADER_SIZE CONNECTION_BUFFER_SIZE
    (fun bytes => bytesUint16 (bytes.drop 2)) requestBody := rfl

theorem requestFrame_lawful : Lawful requestFrame := by
  rw [requestFrame_eq]
  refine headed_lawful size_append (fun bytes more hlen => ?_) fun bytes size payload len r h => ?_
  · unfold requestBody
    rw [bytesUint16_append (Nat.le_of_add_right_le (k := 2) hlen)]
  · unfold requestBody at h
    split at h
    · cases h
      exact ⟨Nat.add_pos_left (by decide) _, le_rfl⟩
    · cases h

/-- A full ring that waits for more holds the beginning of a frame that does not fit. -/
theorem requestFrame_full {bytes more : List UInt8} (hlen : bytes.length = CONNECTION_BUFFER_SIZE)
    (hwait : requestFrame bytes = .wait) (hmore : more ≠ []) :
    requestFrame (bytes ++ more) = .bad := by
  rw [requestFrame_eq] at hwait ⊢
  refine headed_full size_append (fun bytes size payload h => ?_) (by decide) hlen hwait hmore
  unfold requestBody at h
  split at h <;> cases h

/-! ## Decoding -/

/-- A decoder that agrees with the reference: it finds `expected` in a payload of the given
size, changes only the in ring, and takes the whole payload if it finds a request. -/
structure Decodes (conn : Connection) (size : Nat) (expected : Option Request)
    (d : Option Request × Connection) : Prop where
  request : d.1 = expected
  input : ∃ inp, d.2 = { conn with inp := inp }
  whole : d.1 ≠ none → d.2 = { conn with inp := conn.inp.skip size }

/-- A decoder that stops before the end of the payload has found nothing. -/
theorem Decodes.refused {conn conn' : Connection} {size : Nat} (inp : ConnectionBuffer)
    (h : conn' = { conn with inp := inp }) : Decodes conn size none (none, conn') :=
  ⟨rfl, ⟨inp, h⟩, fun hne => absurd rfl hne⟩

section

variable {conn : Connection} {size : Nat}

theorem toList_take_eq_nil (h : size ≤ conn.inp.size) :
    conn.inp.toList.take size = [] ↔ size = 0 := by
  have hlen : (conn.inp.toList.take size).length = size := by
    rw [List.length_take, toList_length]
    omega
  rw [← List.length_eq_zero_iff, hlen]

theorem decodeBare_decodes (r : Request) (h : size ≤ conn.inp.size) :
    Decodes conn size (if conn.inp.toList.take size = [] then some r else none)
      (decodeBare r conn size) := by
  simp only [toList_take_eq_nil h, decodeBare]
  by_cases h0 : size = 0
  · subst h0
    have hskip : conn.inp.skip 0 = conn.inp := by simp [skip]
    refine ⟨rfl, ⟨conn.inp, rfl⟩, fun _ => ?_⟩
    rw [hskip]
  · rw [if_pos h0, if_neg h0]
    exact .refused conn.inp rfl

theorem decodeInt_decodes (r : Int → Request) (h : size ≤ conn.inp.size) :
    Decodes conn size (if (conn.inp.toList.take size).length = 4
      then some (r (bytesInt (conn.inp.toList.take size))) else none) (decodeInt r conn size) := by
  have hlen : (conn.inp.toList.take size).length = size := by
    rw [List.length_take, toList_length]
    omega
  simp only [decodeInt, hlen]
  by_cases h4 : size = 4
  · subst h4
    simp only [ne_eq, not_true_eq_false, if_false, if_true, connectionGet_ok conn h]
    exact ⟨rfl, ⟨_, rfl⟩, fun _ => rfl⟩
  · simp only [ne_eq, h4, Ne.symm h4, not_false_eq_true, if_true, if_false]
    exact .refused conn.inp rfl

end

/-- `strnlen` finds the NUL at the very end. -/
theorem strnlen_eq_iff {path : List UInt8} (h : path ≠ []) :
    strnlen path = path.length - 1 ↔ path.getLast? = some 0 ∧ 0 ∉ path.dropLast := by
  obtain ⟨init, last, rfl⟩ := (List.eq_nil_or_concat path).resolve_left h
  rw [List.concat_eq_append, List.length_append, List.length_singleton, Nat.add_sub_cancel,
    List.getLast?_concat, List.dropLast_concat]
  unfold strnlen
  induction init with
  | nil =>
      by_cases hlast : last = 0
      · simp [hlast]
      · simp [hlast]
  | cons b init ih =>
      by_cases hb : b = 0
      · simp [hb]
      · simp only [List.cons_append, List.takeWhile_cons, hb, ne_eq, not_false_eq_true,
          decide_true, if_true, List.length_cons, Nat.add_right_cancel_iff, List.mem_cons]
        rw [ih (by simp)]
        simp [Ne.symm hb]

theorem takeWhile_eq_dropLast {path : List UInt8} (h : path.getLast? = some 0)
    (h0 : 0 ∉ path.dropLast) : path.takeWhile (· ≠ 0) = path.dropLast := by
  have hne : path ≠ [] := by
    rintro rfl
    cases h
  obtain ⟨init, last, rfl⟩ := (List.eq_nil_or_concat path).resolve_left hne
  rw [List.concat_eq_append] at *
  rw [List.getLast?_concat] at h
  rw [List.dropLast_concat] at *
  cases h
  rw [List.takeWhile_append_of_pos]
  · simp
  · intro b hb
    simp only [decide_eq_true_eq, ne_eq]
    rintro rfl
    exact h0 hb

theorem decodeOpenDevice_decodes {conn : Connection} {size : Nat} (h : size ≤ conn.inp.size) :
    Decodes conn size ((devicePath (conn.inp.toList.take size)).map .openDevice)
      (decodeOpenDevice conn size) := by
  set payload := conn.inp.toList.take size with hpayload
  have hlen : payload.length = size := by
    rw [hpayload, List.length_take, toList_length]
    omega
  unfold decodeOpenDevice
  by_cases h2 : 2 > size
  · have hnone : devicePath payload = none := if_neg fun hc => by omega
    rw [if_pos h2, hnone]
    exact .refused conn.inp rfl
  rw [if_neg h2, connectionGet_ok conn (by omega)]
  dsimp only
  -- the length field is the beginning of the payload, the path is the rest
  have hmsg : bytesUint16 (conn.inp.toList.take 2) = bytesUint16 payload := by
    have htake : conn.inp.toList.take 2 = payload.take 2 := by
      rw [hpayload, List.take_take, Nat.min_eq_left (by omega)]
    rw [htake, bytesUint16_take (by omega)]
  have hpathLen : (payload.drop 2).length = size - 2 := by rw [List.length_drop, hlen]
  have hdevice : devicePath payload = if bytesUint16 payload = size - 2
      ∧ size - 2 ≤ MAX_PATH_LEN ∧ (payload.drop 2).getLast? = some 0 ∧ 0 ∉ (payload.drop 2).dropLast
      then some (payload.drop 2).dropLast else none := by
    simp only [devicePath, hlen, hpathLen, show 2 ≤ size by omega, true_and]
  rw [hmsg]
  by_cases hlen1 : bytesUint16 payload = size - 2
  swap
  · have hnone : devicePath payload = none := hdevice.trans (if_neg fun hc => hlen1 hc.1)
    rw [if_pos hlen1, hnone]
    exact .refused _ rfl
  rw [if_neg (not_not.mpr hlen1), hlen1]
  by_cases hlen2 : size - 2 > MAX_PATH_LEN
  · have hnone : devicePath payload = none := hdevice.trans (if_neg fun hc => by omega)
    rw [if_pos hlen2, hnone]
    exact .refused _ rfl
  rw [if_neg hlen2]
  have hfit : size - 2 ≤ (conn.inp.skip 2).size := by
    rw [size_skip conn.inp (by omega)]
    omega
  have hpath : (conn.inp.skip 2).toList.take (size - 2) = payload.drop 2 := by
    rw [toList_skip size_dvd conn.inp (by omega), hpayload, List.drop_take]
  rw [connectionGet_ok { conn with inp := conn.inp.skip 2 } hfit]
  dsimp only
  rw [hpath, skip_skip, show 2 + (size - 2) = size by omega]
  by_cases hnil : size - 2 = 0
  · have hempty : payload.drop 2 = [] := List.length_eq_zero_iff.mp (hpathLen.trans hnil)
    have hnone : devicePath payload = none :=
      hdevice.trans (if_neg fun hc => by simp [hempty] at hc)
    rw [if_pos (Or.inl hnil), hnone]
    exact .refused _ rfl
  · have hne : payload.drop 2 ≠ [] := fun hempty => hnil (by rw [← hpathLen, hempty]; rfl)
    have hstr := strnlen_eq_iff hne
    rw [hpathLen] at hstr
    by_cases hterm : strnlen (payload.drop 2) = size - 2 - 1
    · obtain ⟨hlast, hnul⟩ := hstr.mp hterm
      have hsome : devicePath payload = some (payload.drop 2).dropLast :=
        hdevice.trans (if_pos ⟨hlen1, by omega, hlast, hnul⟩)
      rw [if_neg (not_or.mpr ⟨hnil, not_not.mpr hterm⟩), hsome, takeWhile_eq_dropLast hlast hnul]
      exact ⟨rfl, ⟨_, rfl⟩, fun _ => rfl⟩
    · have hnone : devicePath payload = none :=
        hdevice.trans (if_neg fun hc => hterm (hstr.mpr hc.2.2))
      rw [if_pos (Or.inr hterm), hnone]
      exact .refused _ rfl

/-- **The switch of `client_handle_opcode` agrees with the reference**, for a payload that has
arrived. -/
theorem clientDecode_decodes {conn : Connection} {size : Nat} (h : size ≤ conn.inp.size)
    (opcode : Nat) :
    Decodes conn size (requestOf opcode (conn.inp.toList.take size))
      (clientDecode conn opcode size) := by
  match opcode with
  | 1 => exact decodeBare_decodes .openSeat h
  | 2 => exact decodeBare_decodes .closeSeat h
  | 3 => exact decodeOpenDevice_decodes h
  | 4 => exact decodeInt_decodes .closeDevice h
  | 5 => exact decodeBare_decodes .disableSeat h
  | 6 => exact decodeInt_decodes .switchSession h
  | 7 => exact decodeBare_decodes .ping h
  | 0 => exact .refused conn.inp rfl
  | _ + 8 => exact .refused conn.inp rfl

/-! ## A call is a sequence of steps -/

/-- Only the bytes that have arrived from the peer changed. -/
structure Inputs (p : Peer) (s s' : Server) : Prop where
  view : ∀ x, s'.view x = s.view x
  other : ∀ q, q ≠ p → s'.channel q = s.channel q
  own : ∃ inp, s'.channel p = { s.channel p with
    connection := { (s.channel p).connection with inp := inp } }
  controlClients : s'.controlClients = s.controlClients
  nextControlId : s'.nextControlId = s.nextControlId
  /-- What is recorded is that the fds that came with the bytes are closed. -/
  trace : ∀ q : Event → Bool, (∀ fds, q (.fdsClosed p fds) = false) →
    s'.trace.any q = s.trace.any q

section

variable {p : Peer} {s s' s'' : Server}

theorem Inputs.live (h : Inputs p s s') : s'.live = s.live := congrArg View.live (h.view none)

theorem Inputs.trans (h : Inputs p s s') (h' : Inputs p s' s'') : Inputs p s s'' := by
  obtain ⟨inp, hown⟩ := h.own
  obtain ⟨inp', hown'⟩ := h'.own
  refine ⟨fun x => (h'.view x).trans (h.view x), fun q hq => (h'.other q hq).trans (h.other q hq),
    ⟨inp', ?_⟩, h'.controlClients.trans h.controlClients, h'.nextControlId.trans h.nextControlId,
    fun q hq => (h'.trace q hq).trans (h.trace q hq)⟩
  rw [hown', hown]

theorem Inputs.setConnection (s : Server) (p : Peer) (inp : ConnectionBuffer) :
    Inputs p s (s.setConnection p { s.connection p with inp := inp }) := by
  have honly := only_setConnection s p { s.connection p with inp := inp }
  refine ⟨fun x => view_setConnection s x p _, honly.other, ⟨inp, ?_⟩, honly.controlClients,
    honly.nextControlId, fun _ _ => by rw [trace_setConnection]⟩
  unfold Server.channel
  rw [connection_setConnection, mask_setConnection, trace_setConnection]

theorem Inputs.setTwice (s : Server) (p : Peer) (inp inp' : ConnectionBuffer) :
    Inputs p s ((s.setConnection p { s.connection p with inp := inp }).setConnection p
      { s.connection p with inp := inp' }) := by
  have hset := Inputs.setConnection (s.setConnection p { s.connection p with inp := inp }) p inp'
  rw [connection_setConnection] at hset
  exact (Inputs.setConnection s p inp).trans hset

theorem Inputs.setErrno (s : Server) (p : Peer) (e : Nat) : Inputs p s (s.setErrno e) :=
  ⟨fun _ => rfl, fun q _ => channel_setErrno s e q,
    ⟨(s.connection p).inp, channel_setErrno s e p⟩, rfl, rfl, fun _ _ => rfl⟩

/-- The state in which a loop over the frames starts: what has arrived is in the ring. -/
theorem Inputs.received (s : Server) (p : Peer) (inp : ConnectionBuffer) :
    Inputs p s
      ((s.setConnection p { s.connection p with inp := inp }).record (.fdsClosed p [])) := by
  refine (Inputs.setConnection s p inp).trans ?_
  set s₁ := s.setConnection p { s.connection p with inp := inp }
  have honly := only_fdsClosed s₁ p []
  refine ⟨fun x => view_record_quiet s₁ x rfl, honly.other, ⟨(s₁.connection p).inp, ?_⟩,
    honly.controlClients, honly.nextControlId, fun q hq => by simp [Server.record, hq]⟩
  simp [Server.channel, Server.record, Server.connection, Server.mask, Event.sentTo,
    Event.closedFor, Event.queuedFor, Event.framesTo, Event.unflushedTo, devicesOpened]

theorem Inputs.kept (h : Inputs p s s') (hs : s.Kept) : s'.Kept := by
  obtain ⟨inp, hown⟩ := h.own
  have hlive := h.live
  have hnext : s'.nextClientId = s.nextClientId := congrArg View.nextId (h.view none)
  refine ⟨by rw [h.view]; exact hs.wf, fun q => ?_, fun x hx => ?_, ?_⟩
  · show (s'.channel q).connection.Sound
    by_cases hq : q = p
    · rw [hq, hown]
      exact ⟨(hs.sound p).out, (hs.sound p).flush, (hs.sound p).fdsOut⟩
    · rw [h.other q hq]
      exact hs.sound q
  · rw [hnext] at hx
    by_cases hp : .client x = p
    · subst hp
      rw [hown]
      exact hs.virgin x hx
    · rw [h.other _ hp]
      exact hs.virgin x hx
  · constructor
    · rw [hlive]; exact hs.peers.liveNodup
    · rw [hlive, hnext]; exact hs.peers.liveFresh
    · rw [h.controlClients]; exact hs.peers.controlsNodup
    · rw [h.controlClients, h.nextControlId]; exact hs.peers.controlsFresh

end

/-- What the daemon takes off the connection of a client: a request, which it serves or fails to
serve, or something that it refuses. -/
inductive Taken where
  | call (r : Request) (ok : Bool)
  | refuse

/-- The step of the daemon that this is. -/
def Taken.Does (k : Kernel) (c : ClientId) (s s' : Server) : Taken → Prop
  | .call r ok => c ∈ s.live ∧ s' = step k s (.request c r) ∧ (ok = true ↔ c ∈ s'.live)
  | .refuse => c ∈ s.live ∧ s' = step k s (.disconnect c)

/-- The daemon goes from `s` to `s'` by taking these off the connection of `c`. -/
def Reading (k : Kernel) (c : ClientId) (ts : List Taken) (s s' : Server) : Prop :=
  Weak (Inputs (.client c)) (fun t s s' => Taken.Does k c s s' t) ts s s'

theorem Reading.kept {k : Kernel} {c : ClientId} {ts : List Taken} {s s' : Server}
    (h : Reading k c ts s s') (hs : s.Kept) : s'.Kept := by
  refine Weak.invariant (I := Server.Kept) h (fun _ _ hin hs => hin.kept hs) ?_ hs
  intro t _ s s' ht hs
  cases t with
  | call r ok => rw [ht.2.1]; exact kept_step hs _
  | refuse => rw [ht.2]; exact kept_step hs _

theorem Reading.nextClientId {k : Kernel} {c : ClientId} {ts : List Taken} {s s' : Server}
    (h : Reading k c ts s s') (hs : s.Kept) : s.nextClientId ≤ s'.nextClientId := by
  refine (Weak.invariant (I := fun u : Server => u.Kept ∧ s.nextClientId ≤ u.nextClientId) h ?_ ?_
    ⟨hs, le_rfl⟩).2
  · rintro u u' hin ⟨hkept, hle⟩
    exact ⟨hin.kept hkept, hle.trans (congrArg View.nextId (hin.view none)).ge⟩
  · rintro t - u u' ht ⟨hkept, hle⟩
    cases t with
    | call r ok =>
        rw [ht.2.1]
        exact ⟨kept_step hkept _, hle.trans (nextClientId_step hkept _)⟩
    | refuse =>
        rw [ht.2]
        exact ⟨kept_step hkept _, hle.trans (nextClientId_step hkept _)⟩

/-! ## What a step keeps -/

theorem Channel.Moves.inp {ch ch' : Channel} {data : List UInt8} (h : ch.Moves data ch') :
    ch'.connection.inp = ch.connection.inp := by
  obtain ⟨_, ht, -⟩ := h
  exact ht.inp

theorem Channel.Frame.inp {ch ch' : Channel} {m : ServerMsg} {ok : Bool} (h : ch.Frame m ok ch') :
    ch'.connection.inp = ch.connection.inp := by
  cases ok with
  | true =>
      obtain ⟨_, hmoves, -, rfl⟩ := h
      exact hmoves.inp
  | false =>
      obtain ⟨_, -, -, -, hmoves⟩ := h
      exact hmoves.inp

/-- No talk but the first looks at what has arrived. -/
theorem Talk.Effect.inp {t : Talk} {ch ch' : Channel} (h : t.Effect ch ch')
    (ht : ∀ p, t ≠ .accept p) : ch'.connection.inp = ch.connection.inp := by
  cases t with
  | frame c m ok => exact Channel.Frame.inp h
  | device c d ok =>
      obtain ⟨fd, conn, hput, hframe⟩ := h
      have hconn : conn.inp = ch.connection.inp := by
        unfold connectionPutFd at hput
        split_ifs at hput
        cases hb : connectionBufferPut ch.connection.fdsOut (intBytes fd) with
        | error e => rw [hb] at hput; cases hput
        | ok b => rw [hb] at hput; cases hput; rfl
      exact hframe.inp.trans hconn
  | event c m ok =>
      obtain ⟨_, _, hmoves, hconn, -⟩ := event_moves h
      rw [hconn]
      exact hmoves.inp
  | flush c ok =>
      obtain ⟨mid, hmoves, h⟩ := h
      cases ok with
      | true => rw [Channel.Served.connection h]; exact hmoves.inp
      | false => rw [show ch' = mid from h]; exact hmoves.inp
  | message i m ok =>
      obtain ⟨_, mid, hmoves, h⟩ := h
      cases ok with
      | true => rw [Channel.Served.connection h]; exact hmoves.inp
      | false => rw [show ch' = mid.shut from h]; exact hmoves.inp
  | drain p ok =>
      obtain ⟨mid, hmoves, h⟩ := h
      cases ok with
      | true => obtain ⟨-, rfl⟩ := h; exact hmoves.inp
      | false => rw [show ch' = mid from h]; exact hmoves.inp
  | accept p => exact absurd rfl (ht p)
  | close p => rw [show ch' = ch.shut from h]; rfl

theorem Hails.not_accept {P : ClientId → Prop} {ts : List Talk} (h : Hails P ts) :
    ∀ t ∈ ts, ∀ p, t ≠ .accept p := by
  rcases h with rfl | ⟨x, m, ok, -, -, rfl⟩
  · intro t ht
    cases ht
  · intro t ht p
    rw [List.mem_singleton.mp ht]
    simp

theorem Replies.not_accept {c : ClientId} {r : Request} {ok : Bool} {t : Talk}
    (h : Replies c r ok t) (p : Peer) : t ≠ .accept p := by
  cases h <;> simp

theorem RequestTalks.not_accept {c : ClientId} {r : Request} {ts : List Talk}
    (h : RequestTalks c r ts) : ∀ t ∈ ts, ∀ p, t ≠ .accept p := by
  intro t ht p
  cases h with
  | served hbefore hafter hreply =>
      simp only [List.mem_append, List.mem_cons, List.not_mem_nil, or_false] at ht
      rcases ht with (ht | rfl | ht) | rfl
      · exact hbefore.not_accept t ht p
      · exact hreply.not_accept p
      · exact hafter.not_accept t ht p
      · simp
  | unsent hbefore hafter hreply =>
      simp only [List.mem_append, List.mem_cons, List.not_mem_nil, or_false] at ht
      rcases ht with (ht | rfl | ht) | rfl | rfl
      · exact hbefore.not_accept t ht p
      · exact hreply.not_accept p
      · exact hafter.not_accept t ht p
      · simp
      · simp
  | failed hbefore hreply =>
      simp only [List.mem_append, List.mem_singleton] at ht
      rcases ht with (ht | ht) | rfl
      · exact hbefore.not_accept t ht p
      · rcases hreply with rfl | ⟨t', rfl, hreply⟩
        · cases ht
        · rw [List.mem_singleton.mp ht]
          exact hreply.not_accept p
      · simp

/-- A client that is there is not accepted again. -/
theorem ClientTalks.not_accept {s : Server} {st : Step} {c : ClientId} {ts : List Talk}
    (h : ClientTalks s st c ts) (hlive : c ∈ s.live) (hfresh : ∀ x ∈ s.live, x < s.nextClientId) :
    ∀ t ∈ ts, ∀ p, t ≠ .accept p := by
  unfold ClientTalks at h
  split_ifs at h with hown
  · match st, hown.1, h with
    | .request _ r, rfl, h => exact RequestTalks.not_accept h
    | .writable _, rfl, .inl ⟨ok, h⟩ => subst h; simp
    | .writable _, rfl, .inr h => subst h; simp
    | .disconnect _, rfl, h => rw [show ts = [.close (.client c)] from h]; simp
  · rcases h with ⟨hhail, -⟩ | ⟨heq, -⟩
    · exact hhail.not_accept
    · exact absurd heq (hfresh c hlive).ne

/-- **No step reads from a client's connection.** -/
theorem step_inp {k : Kernel} {s : Server} (h : s.Kept) {c : ClientId} (hlive : c ∈ s.live)
    (st : Step) : ((step k s st).clients c).connection.inp = (s.clients c).connection.inp := by
  obtain ⟨ts, hclient, heffects, -⟩ := step_client (k := k) h c st
  have haccept := hclient.not_accept hlive h.peers.liveFresh
  exact Effects.invariant (I := fun ch => ch.connection.inp = (s.clients c).connection.inp) heffects
    (fun t ht _ _ he hin => (he.inp (haccept t ht)).trans hin) rfl

/-! ## Requests and the end of a client as steps -/

section

variable {k : Kernel} {s : Server} {c : ClientId}

theorem step_request (hlive : c ∈ s.live) (r : Request) :
    step k s (.request c r) = clientHandleRequest k s c r :=
  if_neg (by simp [Step.client, Step.controlClient, hlive])

theorem step_disconnect (hlive : c ∈ s.live) : step k s (.disconnect c) = clientDestroy k s c :=
  if_neg (by simp [Step.client, Step.controlClient, hlive])

theorem not_live_clientDestroy (hwf : (s.view none).WF) (hsound : s.Sound) (hpeers : s.PeersOk) :
    c ∉ (clientDestroy k s c).live := by
  obtain ⟨ts, htalk, hown, -, -⟩ := clientDestroy_about k s (c := c) hwf
  intro hlive
  have hpresent := ((htalk.present hsound hpeers).2 (.client c)).mp hlive
  rw [hown] at hpresent
  exact hpresent

/-- What `client_handle_opcode` makes of a request, and whether it succeeds. -/
def serveRequest (k : Kernel) (s : Server) (c : ClientId) (r : Request) : Bool × Server :=
  let h := handleRequest k s c r
  if h.1 then clientFlush k h.2 c else (false, h.2)

theorem clientHandleRequest_eq (r : Request) :
    clientHandleRequest k s c r = if (serveRequest k s c r).1 then (serveRequest k s c r).2
      else clientDestroy k (serveRequest k s c r).2 c := by
  unfold clientHandleRequest serveRequest
  dsimp only
  by_cases hr : (handleRequest k s c r).1 = true
  · simp only [if_pos hr]
  · simp only [if_neg hr, Bool.false_eq_true, if_false]

/-- A request that succeeds leaves the client where it is; otherwise the client is destroyed. -/
theorem serveRequest_live (h : s.Kept) (hlive : c ∈ s.live) (r : Request) :
    (serveRequest k s c r).1 = true ↔ c ∈ (step k s (.request c r)).live := by
  obtain ⟨ts, htalk, -⟩ := handleRequest_talks k s h.wf hlive r
  have hlive' : c ∈ (handleRequest k s c r).2.live := by
    rw [live_handleRequest k s h.wf hlive r]
    exact hlive
  -- the flush keeps everything that is needed to destroy the client
  have hflush : (clientFlush k (handleRequest k s c r).2 c).2.view none
      = (handleRequest k s c r).2.view none := view_clientFlush k _ none c
  have hwf : ((handleRequest k s c r).2.view none).WF := h.wf.path (handleRequest_path k s h.wf hlive r)
  have htalk' : Talks k (ts ++ [.flush c (clientFlush k (handleRequest k s c r).2 c).1]) s
      (clientFlush k (handleRequest k s c r).2 c).2 := htalk.trans (.one rfl)
  rw [step_request hlive, clientHandleRequest_eq]
  unfold serveRequest
  dsimp only
  by_cases hr : (handleRequest k s c r).1 = true
  · simp only [if_pos hr]
    by_cases hf : (clientFlush k (handleRequest k s c r).2 c).1 = true
    · rw [if_pos hf]
      refine ⟨fun _ => ?_, fun _ => hf⟩
      rw [show (clientFlush k (handleRequest k s c r).2 c).2.live = _ from congrArg View.live hflush]
      exact hlive'
    · rw [if_neg hf]
      refine ⟨fun hok => absurd hok hf, fun hmem => absurd hmem ?_⟩
      exact not_live_clientDestroy (by rw [hflush]; exact hwf) (htalk'.spec h.sound).sound
        (htalk'.present h.sound h.peers).1
  · simp only [if_neg hr, Bool.false_eq_true, if_false, false_iff]
    exact not_live_clientDestroy hwf (htalk.spec h.sound).sound (htalk.present h.sound h.peers).1

end

/-! ## The loop -/

/-- What `client_handle_connection` does in the end. -/
def Handled.finish (k : Kernel) (c : ClientId) (h : Handled) : Server :=
  if h.ok then h.server else clientDestroy k h.server c

/-- The requests taken off the connection. -/
def Handled.takes (h : Handled) : List Taken := h.calls.map fun x => .call x.1 x.2

/-- The bytes that have arrived from a client and wait to be handled. -/
def arrived (s : Server) (c : ClientId) : List UInt8 := (s.clients c).connection.inp.toList

/-- The frames that the loop found are those of the reference parser. -/
structure Parses (k : Kernel) (c : ClientId) (s : Server) (h : Handled) : Prop where
  reading : Reading k c h.takes s (h.finish k c)
    ∨ h.ok = false ∧ Reading k c (h.takes ++ [.refuse]) s (h.finish k c)
  live : c ∈ (h.finish k c).live ↔ h.ok = true
  ok : h.ok = true → (∀ x ∈ h.calls, x.2 = true)
    ∧ parse requestFrame (arrived s c) = ⟨h.calls.map Prod.fst, false, arrived (h.finish k c) c⟩
    ∧ (arrived (h.finish k c) c).length ≤ CONNECTION_BUFFER_SIZE
  /-- A handler failed, or the bytes were bad. -/
  fail : h.ok = false → h.calls.map Prod.fst <+: (parse requestFrame (arrived s c)).frames
    ∧ ((∀ x ∈ h.calls, x.2 = true) → (parse requestFrame (arrived s c)).bad = true
      ∧ (parse requestFrame (arrived s c)).frames = h.calls.map Prod.fst)

section

variable {k : Kernel} {c : ClientId} {s : Server} {r : Request}

/-- Nothing more can be done with what has arrived. -/
theorem Parses.wait {s' : Server} (hlive : c ∈ s.live)
    (hring : (s.clients c).connection.inp.size ≤ CONNECTION_BUFFER_SIZE)
    (hin : Inputs (.client c) s s')
    (hsame : (s'.clients c).connection.inp = (s.clients c).connection.inp)
    (hwait : requestFrame (arrived s c) = .wait) : Parses k c s ⟨[], true, s'⟩ := by
  have harrived : arrived s' c = arrived s c := congrArg toList hsame
  refine ⟨.inl (.quiet hin), ?_, fun _ => ⟨fun _ hx => (by cases hx), ?_, ?_⟩,
    fun hf => (by cases hf)⟩
  · show c ∈ s'.live ↔ true = true
    rw [hin.live]
    simp [hlive]
  · rw [parse_wait hwait]
    show _ = Parsed.mk [] false (arrived s' c)
    rw [harrived]
  · show (arrived s' c).length ≤ _
    rw [harrived]
    exact (toList_length _).trans_le hring

/-- The bytes are refused. -/
theorem Parses.refused {s' : Server} (h : s.Kept) (hlive : c ∈ s.live)
    (hin : Inputs (.client c) s s') (hbad : requestFrame (arrived s c) = .bad) :
    Parses k c s ⟨[], false, s'⟩ := by
  have hlive' : c ∈ s'.live := hin.live ▸ hlive
  have hkept := hin.kept h
  have hend : clientDestroy k s' c = step k s' (.disconnect c) := (step_disconnect hlive').symm
  refine ⟨.inr ⟨rfl, .silent hin (.one ⟨hlive', hend⟩)⟩, ?_,
    fun hok => (by cases hok), fun _ => ?_⟩
  · show c ∈ (clientDestroy k s' c).live ↔ false = true
    simp [not_live_clientDestroy hkept.wf hkept.sound hkept.peers]
  · rw [parse_bad hbad]
    exact ⟨List.prefix_rfl, fun _ => ⟨rfl, rfl⟩⟩

/-- The first frame is a request that cannot be served. -/
theorem Parses.failed {s₁ : Server} {len : Nat} (h : s.Kept) (hlive : c ∈ s.live)
    (hin : Inputs (.client c) s s₁) (hframe : requestFrame (arrived s c) = .frame len r)
    (hserve : (serveRequest k s₁ c r).1 = false) :
    Parses k c s ⟨[(r, false)], false, (serveRequest k s₁ c r).2⟩ := by
  have hlive₁ : c ∈ s₁.live := hin.live ▸ hlive
  have hkept := hin.kept h
  have hend : clientDestroy k (serveRequest k s₁ c r).2 c = step k s₁ (.request c r) := by
    rw [step_request hlive₁, clientHandleRequest_eq, hserve, if_neg Bool.false_ne_true]
  have hgone : c ∉ (step k s₁ (.request c r)).live := fun hmem => by
    have := (serveRequest_live hkept hlive₁ r).mpr hmem
    rw [hserve] at this
    cases this
  have hfinish : (Handled.finish k c ⟨[(r, false)], false, (serveRequest k s₁ c r).2⟩)
      = step k s₁ (.request c r) := hend
  refine ⟨.inl (.silent hin (.one ⟨hlive₁, hend, by rw [hfinish]; simp [hgone]⟩)), ?_,
    fun hok => (by cases hok), fun _ => ⟨?_, fun hall => ?_⟩⟩
  · show c ∈ (clientDestroy k (serveRequest k s₁ c r).2 c).live ↔ false = true
    rw [hend]
    simp [hgone]
  · rw [parse_frame requestFrame_lawful hframe]
    exact List.cons_prefix_cons.mpr ⟨rfl, List.nil_prefix⟩
  · exact absurd (hall (r, false) List.mem_cons_self) Bool.false_ne_true

/-- The first frame is a request that is served, and the loop goes on. -/
theorem Parses.served {s₁ : Server} {len : Nat} {rest : Handled} (h : s.Kept) (hlive : c ∈ s.live)
    (hin : Inputs (.client c) s s₁) (hdrop : arrived s₁ c = (arrived s c).drop len)
    (hframe : requestFrame (arrived s c) = .frame len r) (hserve : (serveRequest k s₁ c r).1 = true)
    (hrest : Parses k c (serveRequest k s₁ c r).2 rest) :
    Parses k c s ⟨(r, true) :: rest.calls, rest.ok, rest.server⟩ := by
  have hlive₁ : c ∈ s₁.live := hin.live ▸ hlive
  have hkept := hin.kept h
  have hend : (serveRequest k s₁ c r).2 = step k s₁ (.request c r) := by
    rw [step_request hlive₁, clientHandleRequest_eq, hserve, if_pos rfl]
  have hhere : c ∈ (serveRequest k s₁ c r).2.live := by
    rw [hend]
    exact (serveRequest_live hkept hlive₁ r).mp hserve
  have hring : arrived (serveRequest k s₁ c r).2 c = (arrived s c).drop len := by
    rw [← hdrop]
    unfold arrived
    rw [hend, step_inp hkept hlive₁]
  have htake : ∀ {ts : List Taken} {s' : Server}, Reading k c ts (serveRequest k s₁ c r).2 s' →
      Reading k c (.call r true :: ts) s s' := fun hts =>
    .silent hin (.label ⟨hlive₁, hend, by simp [hhere]⟩ hts)
  have hparse := parse_frame requestFrame_lawful hframe
  rw [← hring] at hparse
  refine ⟨?_, hrest.live, fun hok => ?_, fun hok => ?_⟩
  · rcases hrest.reading with hread | ⟨hok, hread⟩
    · exact .inl (htake hread)
    · exact .inr ⟨hok, htake hread⟩
  · obtain ⟨hall, hpar, hsize⟩ := hrest.ok hok
    refine ⟨fun x hx => ?_, ?_, hsize⟩
    · rcases List.mem_cons.mp hx with rfl | hx
      · rfl
      · exact hall x hx
    · rw [hparse, hpar]
      rfl
  · obtain ⟨hpre, hbad⟩ := hrest.fail hok
    rw [hparse]
    refine ⟨List.cons_prefix_cons.mpr ⟨rfl, hpre⟩, fun hall => ?_⟩
    obtain ⟨hb, hframes⟩ := hbad fun x hx => hall x (List.mem_cons_of_mem _ hx)
    exact ⟨hb, congrArg (r :: ·) hframes⟩

theorem clientHandleOpcode_none {opcode size : Nat}
    (h : (clientDecode (s.clients c).connection opcode size).1 = none) :
    clientHandleOpcode k s c opcode size = ⟨[], false, s.setConnection (.client c)
      (clientDecode (s.clients c).connection opcode size).2⟩ := by
  unfold clientHandleOpcode
  simp only [h]

theorem clientHandleOpcode_some {opcode size : Nat}
    (h : (clientDecode (s.clients c).connection opcode size).1 = some r) :
    let s₁ := s.setConnection (.client c) (clientDecode (s.clients c).connection opcode size).2
    clientHandleOpcode k s c opcode size
      = ⟨[(r, (serveRequest k s₁ c r).1)], (serveRequest k s₁ c r).1, (serveRequest k s₁ c r).2⟩ := by
  intro s₁
  unfold clientHandleOpcode serveRequest
  simp only [h]
  by_cases hr : (handleRequest k s₁ c r).1 = true
  · simp only [s₁] at hr ⊢
    simp only [if_pos hr]
  · simp only [s₁] at hr ⊢
    simp only [if_neg hr]

/-- **The loop of `client_handle_connection` finds the frames of the reference parser.** -/
theorem clientHandleFrames_parses (turns : Nat) (h : s.Kept) (hlive : c ∈ s.live)
    (hring : (s.clients c).connection.inp.size ≤ CONNECTION_BUFFER_SIZE)
    (hturns : (s.clients c).connection.inp.size < turns) :
    Parses k c s (clientHandleFrames k c turns s) := by
  induction turns generalizing s with
  | zero => omega
  | succ turns ih =>
      set conn := (s.clients c).connection with hconn
      have hlen : (arrived s c).length = conn.inp.size := toList_length _
      have hdr : PROTO_HEADER_SIZE = 4 := rfl
      have hcap : CONNECTION_BUFFER_SIZE = 256 := rfl
      unfold clientHandleFrames
      by_cases hshort : conn.inp.size < PROTO_HEADER_SIZE
      · -- not even a header
        rw [connectionGet_short conn hshort]
        refine .wait hlive hring (.setErrno s _ _) rfl ?_
        simp only [requestFrame, hlen, if_pos hshort]
      rw [connectionGet_ok conn (by omega)]
      dsimp only
      obtain ⟨hop, hsize⟩ := header_take (by omega : PROTO_HEADER_SIZE ≤ (arrived s c).length)
      rw [show conn.inp.toList = arrived s c from rfl, hop, hsize]
      set opcode := bytesUint16 (arrived s c) with hopcode
      set size := bytesUint16 ((arrived s c).drop 2) with hsz
      have hskip : (conn.inp.skip PROTO_HEADER_SIZE).size = conn.inp.size - PROTO_HEADER_SIZE :=
        size_skip _ (by omega)
      by_cases hpart : connectionPending { conn with inp := conn.inp.skip PROTO_HEADER_SIZE } < size
      · -- the payload has not arrived yet; the header is put back
        rw [if_pos hpart, connectionRestore_skip]
        have hpart' : conn.inp.size - PROTO_HEADER_SIZE < size := hskip ▸ hpart
        refine .wait hlive hring (.setConnection s (.client c) conn.inp) ?_ ?_
        · simp [Server.setConnection, Server.setClient, hconn]
        · simp only [requestFrame, hlen, if_neg hshort, ← hsz]
          split_ifs <;> first | rfl | omega
      · rw [if_neg hpart]
        have hpart' : size ≤ (conn.inp.skip PROTO_HEADER_SIZE).size := not_lt.mp hpart
        have hpart'' : PROTO_HEADER_SIZE + size ≤ conn.inp.size := by omega
        set conn₁ : Connection := { conn with inp := conn.inp.skip PROTO_HEADER_SIZE } with hconn₁
        set s₁ := s.setConnection (.client c) conn₁ with hs₁
        have hat : (s₁.clients c).connection = conn₁ := connection_setConnection s (.client c) conn₁
        have hpayload : conn₁.inp.toList.take size
            = ((arrived s c).drop PROTO_HEADER_SIZE).take size := by
          rw [hconn₁, toList_skip size_dvd _ (by omega)]
          rfl
        have harrived : size ≤ conn₁.inp.size := hpart'
        obtain ⟨hreq, ⟨inp, hinp⟩, hwhole⟩ := clientDecode_decodes harrived opcode
        rw [hpayload] at hreq
        have hverdict : requestFrame (arrived s c)
            = match requestOf opcode (((arrived s c).drop PROTO_HEADER_SIZE).take size) with
              | some r => .frame (PROTO_HEADER_SIZE + size) r
              | none => .bad := by
          simp only [requestFrame, hlen, if_neg hshort, ← hsz]
          rw [if_neg (by omega), if_neg (by omega)]
        rw [← hreq] at hverdict
        have hin₂ : Inputs (.client c) s
            (s₁.setConnection (.client c) (clientDecode conn₁ opcode size).2) := by
          rw [hinp]
          exact .setTwice s (.client c) _ inp
        cases hd : (clientDecode conn₁ opcode size).1 with
        | none =>
            rw [hd] at hverdict
            rw [clientHandleOpcode_none (by rw [hat]; exact hd), hat, if_neg Bool.false_ne_true]
            exact .refused h hlive hin₂ hverdict
        | some r =>
            rw [hd] at hverdict
            have hd' : (clientDecode (s₁.clients c).connection opcode size).1 = some r := by
              rw [hat]
              exact hd
            have hop := clientHandleOpcode_some (k := k) hd'
            dsimp only at hop
            rw [hat] at hop
            rw [hop]
            set s₂ := s₁.setConnection (.client c) (clientDecode conn₁ opcode size).2 with hs₂
            by_cases hserve : (serveRequest k s₂ c r).1 = true
            · have hwhole' := hwhole (by rw [hd]; simp)
              have hinp₂ : (s₂.clients c).connection.inp = conn.inp.skip (PROTO_HEADER_SIZE + size) := by
                rw [hs₂, hwhole']
                simp [Server.setConnection, Server.setClient, hconn₁, skip_skip]
              have hdrop : arrived s₂ c = (arrived s c).drop (PROTO_HEADER_SIZE + size) := by
                unfold arrived
                rw [hinp₂, toList_skip size_dvd _ hpart'']
              have hlive₂ : c ∈ s₂.live := hin₂.live ▸ hlive
              have hkept₂ := hin₂.kept h
              have hend : (serveRequest k s₂ c r).2 = step k s₂ (.request c r) := by
                rw [step_request hlive₂, clientHandleRequest_eq, hserve, if_pos rfl]
              have hinp₃ : ((serveRequest k s₂ c r).2.clients c).connection.inp.size
                  = conn.inp.size - (PROTO_HEADER_SIZE + size) := by
                rw [hend, step_inp hkept₂ hlive₂, hinp₂, size_skip _ hpart'']
              rw [if_pos hserve, hserve]
              refine .served h hlive hin₂ hdrop hverdict hserve (ih ?_ ?_ (by omega) (by omega))
              · rw [hend]
                exact kept_step hkept₂ _
              · rw [hend]
                exact (serveRequest_live hkept₂ hlive₂ r).mp hserve
            · rw [if_neg hserve, Bool.eq_false_iff.mpr hserve]
              exact .failed h hlive hin₂ hverdict (Bool.eq_false_iff.mpr hserve)

end

end DdeSeatd
