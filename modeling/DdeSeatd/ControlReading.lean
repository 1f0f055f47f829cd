import DdeSeatd.ControlConnection
import DdeSeatd.ControlDialogue
import DdeSeatd.Framing

set_option autoImplicit false

/-! # What a control client's bytes mean

The reference parser of the control socket: a frame is a header of four bytes and as many bytes as
the header says, whether or not it is a request that the daemon knows (`controlFrame`).

The daemon goes over the bytes in its own way. It answers a frame that is not a request with an
error and does not take its payload, so that the next header is read where the payload begins
(`controlTake`). In whatever pieces a stream is read, the loop of
`control_client_handle_connection` finds the frames of `controlTake`
(`controlHandleFrames_parses`); the two parsers agree about a stream exactly if the frames in it
that are not requests have no payload (`controlTake_agrees_iff`).
-/

namespace DdeSeatd

open RingBuffer Framer Labelled

/-! ## The reference parser -/

/-- The request with this opcode and payload. -/
def controlRequestOf (opcode : Nat) (payload : List UInt8) : ControlRequest :=
  match opcode with
  | 1 => if payload.length = CREATE_GROUP_VT_SIZE
      then .createGroupVt (bytesInt payload) (bytesInt (payload.drop 4)) else .invalid
  | 2 => if payload.length = 4 then .destroyGroupVt (bytesInt payload) else .invalid
  | 3 => if payload.length = 0 then .getActiveVt else .invalid
  | 4 => if payload.length = 0 then .findFreeVt else .invalid
  | 5 => if payload.length = 4 then .switchVt (bytesInt payload) else .invalid
  | _ => .invalid

/-- The first frame of a stream: the request, and the size of its payload. -/
def controlFrame (bytes : List UInt8) : Verdict (ControlRequest × Nat) :=
  let size := bytesUint16 (bytes.drop 2)
  let total := CONTROL_HEADER_SIZE + size
  if bytes.length < CONTROL_HEADER_SIZE then .wait
  else if CONNECTION_BUFFER_SIZE < total then
    if CONNECTION_BUFFER_SIZE < bytes.length then .bad else .wait
  else if bytes.length < total then .wait
  else .frame total
    (controlRequestOf (bytesUint16 bytes) ((bytes.drop CONTROL_HEADER_SIZE).take size), size)

/-- How many bytes the daemon takes for a frame. -/
def takenFor (x : ControlRequest × Nat) : Nat :=
  if x.1 = .invalid then CONTROL_HEADER_SIZE else CONTROL_HEADER_SIZE + x.2

/-- The first frame of a stream as the daemon takes it. -/
def controlTake (bytes : List UInt8) : Verdict (ControlRequest × Nat) :=
  match controlFrame bytes with
  | .frame _ x => .frame (takenFor x) x
  | .wait => .wait
  | .bad => .bad

/-- A frame that is not a request has no payload. -/
def Aligned (x : ControlRequest × Nat) : Prop := x.1 = .invalid → x.2 = 0

theorem controlFrame_eq_frame {bytes : List UInt8} {len : Nat} {x : ControlRequest × Nat}
    (h : controlFrame bytes = .frame len x) :
    len = CONTROL_HEADER_SIZE + x.2 ∧ len ≤ bytes.length ∧ len ≤ CONNECTION_BUFFER_SIZE := by
  simp only [controlFrame] at h
  split_ifs at h with h1 h2 h3 h4
  cases h
  exact ⟨rfl, by omega, by omega⟩

theorem takenFor_le (x : ControlRequest × Nat) :
    CONTROL_HEADER_SIZE ≤ takenFor x ∧ takenFor x ≤ CONTROL_HEADER_SIZE + x.2 := by
  unfold takenFor
  split_ifs
  · exact ⟨le_rfl, Nat.le_add_right _ _⟩
  · exact ⟨Nat.le_add_right _ _, le_rfl⟩

/-- The daemon takes the whole of a frame exactly if it is aligned. -/
theorem takenFor_eq_iff (x : ControlRequest × Nat) :
    takenFor x = CONTROL_HEADER_SIZE + x.2 ↔ Aligned x := by
  unfold takenFor Aligned
  split_ifs with h
  · simp [h]
  · simp [h]

theorem controlFrame_eq : controlFrame = headed CONTROL_HEADER_SIZE CONNECTION_BUFFER_SIZE
    (fun bytes => bytesUint16 (bytes.drop 2)) fun header size payload =>
      .frame (CONTROL_HEADER_SIZE + size) (controlRequestOf (bytesUint16 header) payload, size) := rfl

theorem controlFrame_lawful : Lawful controlFrame := by
  rw [controlFrame_eq]
  refine headed_lawful size_append (fun bytes more hlen => ?_) fun bytes size payload len x h => ?_
  · rw [bytesUint16_append (Nat.le_of_add_right_le (k := 2) hlen)]
  · cases h
    exact ⟨Nat.add_pos_left (by decide) _, le_rfl⟩

/-- A full ring that waits for more holds the beginning of a frame that does not fit. -/
theorem controlFrame_full {bytes more : List UInt8} (hlen : bytes.length = CONNECTION_BUFFER_SIZE)
    (hwait : controlFrame bytes = .wait) (hmore : more ≠ []) :
    controlFrame (bytes ++ more) = .bad := by
  rw [controlFrame_eq] at hwait ⊢
  exact headed_full size_append (fun _ _ _ h => by cases h) (by decide) hlen hwait hmore

theorem controlTake_eq_frame {bytes : List UInt8} {len : Nat} {x : ControlRequest × Nat}
    (h : controlTake bytes = .frame len x) :
    len = takenFor x ∧ controlFrame bytes = .frame (CONTROL_HEADER_SIZE + x.2) x := by
  unfold controlTake at h
  split at h
  · next len' x' hframe =>
    cases h
    exact ⟨rfl, by rw [hframe, (controlFrame_eq_frame hframe).1]⟩
  · cases h
  · cases h

theorem controlTake_lawful : Lawful controlTake where
  bounds := by
    intro bytes len x h
    obtain ⟨rfl, hframe⟩ := controlTake_eq_frame h
    have hpos : 0 < CONTROL_HEADER_SIZE := by decide
    have htaken := takenFor_le x
    exact ⟨by omega, htaken.2.trans (controlFrame_eq_frame hframe).2.1⟩
  stable := by
    intro bytes more h
    have hne : controlFrame bytes ≠ .wait := fun hwait => h (by simp only [controlTake, hwait])
    simp only [controlTake, controlFrame_lawful.stable more hne]

/-! ## Where the two agree -/

/-- The size of the payload that belongs to a request. -/
def ControlRequest.payloadSize : ControlRequest → Nat
  | .createGroupVt _ _ => CREATE_GROUP_VT_SIZE
  | .destroyGroupVt _ | .switchVt _ => 4
  | .getActiveVt | .findFreeVt | .invalid => 0

/-- A payload that makes a request has the size that belongs to it. -/
theorem controlRequestOf_size (opcode : Nat) (payload : List UInt8) :
    controlRequestOf opcode payload = .invalid
      ∨ payload.length = (controlRequestOf opcode payload).payloadSize := by
  unfold controlRequestOf
  split
  all_goals try split_ifs with hlen
  all_goals first | exact .inl rfl | exact .inr hlen

/-- The daemon takes a header and what belongs to the request. -/
theorem takenFor_eq {bytes : List UInt8} {len : Nat} {x : ControlRequest × Nat}
    (h : controlFrame bytes = .frame len x) :
    takenFor x = CONTROL_HEADER_SIZE + x.1.payloadSize := by
  simp only [controlFrame] at h
  split_ifs at h with h1 h2 h3 h4
  cases h
  set size := bytesUint16 (bytes.drop 2)
  have hlen : ((bytes.drop CONTROL_HEADER_SIZE).take size).length = size := by
    rw [List.length_take, List.length_drop]
    omega
  unfold takenFor
  rcases controlRequestOf_size (bytesUint16 bytes) ((bytes.drop CONTROL_HEADER_SIZE).take size) with
    hinvalid | hsize
  · simp only [hinvalid, if_true]
    rfl
  · split_ifs with hinvalid
    · dsimp only at hinvalid
      rw [hinvalid]
      rfl
    · rw [← hsize, hlen]

/-- The parsers agree about a stream whose frames are all aligned. -/
theorem controlTake_agrees (bytes : List UInt8)
    (h : ∀ x ∈ (parse controlFrame bytes).frames, Aligned x) :
    parse controlTake bytes = parse controlFrame bytes := by
  induction bytes using parse_induction controlFrame_lawful with
  | hwait bytes hv => rw [parse_wait hv, parse_wait (by simp only [controlTake, hv])]
  | hbad bytes hv => rw [parse_bad hv, parse_bad (by simp only [controlTake, hv])]
  | hframe bytes len x hv ih =>
      rw [parse_frame controlFrame_lawful hv] at h ⊢
      have hall := (takenFor_eq_iff x).mpr (h x List.mem_cons_self)
      have htake : controlTake bytes = .frame len x := by
        simp only [controlTake, hv, hall, (controlFrame_eq_frame hv).1]
      rw [parse_frame controlTake_lawful htake, ih fun y hy => h y (List.mem_cons_of_mem x hy)]

/-- Sums that are equal although no summand is larger have equal summands. -/
theorem eq_of_sum_eq {α : Type} {v w : α → Nat} {xs : List α} (hle : ∀ x ∈ xs, v x ≤ w x)
    (hsum : (xs.map v).sum = (xs.map w).sum) : ∀ x ∈ xs, v x = w x := by
  induction xs with
  | nil => simp
  | cons x xs ih =>
      have hx := hle x List.mem_cons_self
      have hrest : ∀ y ∈ xs, v y ≤ w y := fun y hy => hle y (List.mem_cons_of_mem x hy)
      have hsums : (xs.map v).sum ≤ (xs.map w).sum := List.sum_le_sum hrest
      rw [List.map_cons, List.map_cons, List.sum_cons, List.sum_cons] at hsum
      intro y hy
      rcases List.mem_cons.mp hy with rfl | hy
      · omega
      · exact ih hrest (by omega) y hy

/-- **The daemon agrees with the reference about a stream exactly if its frames are aligned**: the
requests found and the bytes left over are then the same. -/
theorem controlTake_agrees_iff (bytes : List UInt8) :
    ((parse controlTake bytes).frames.map Prod.fst = (parse controlFrame bytes).frames.map Prod.fst
        ∧ (parse controlTake bytes).rest = (parse controlFrame bytes).rest)
      ↔ ∀ x ∈ (parse controlFrame bytes).frames, Aligned x := by
  constructor
  · -- both have gone over the same bytes, but the daemon never takes more for a frame
    rintro ⟨hframes, hrest⟩
    have hours := parse_length controlTake_lawful (w := fun x => CONTROL_HEADER_SIZE + x.1.payloadSize)
      (fun h => by rw [(controlTake_eq_frame h).1, takenFor_eq (controlTake_eq_frame h).2]) bytes
    have htheirs := parse_length controlFrame_lawful (w := fun x => CONTROL_HEADER_SIZE + x.2)
      (fun h => (controlFrame_eq_frame h).1) bytes
    have hmap : ∀ xs : List (ControlRequest × Nat),
        xs.map (fun x => CONTROL_HEADER_SIZE + x.1.payloadSize)
          = (xs.map Prod.fst).map (fun r => CONTROL_HEADER_SIZE + r.payloadSize) := fun xs => by
      rw [List.map_map]
      rfl
    rw [hmap, hframes, ← hmap, hrest] at hours
    have htaken := forall_mem_frames controlFrame_lawful (Q := fun x =>
      takenFor x = CONTROL_HEADER_SIZE + x.1.payloadSize) takenFor_eq bytes
    have hle : ∀ x ∈ (parse controlFrame bytes).frames,
        CONTROL_HEADER_SIZE + x.1.payloadSize ≤ CONTROL_HEADER_SIZE + x.2 := fun x hx => by
      rw [← htaken x hx]
      exact (takenFor_le x).2
    have hsame := eq_of_sum_eq hle (by omega)
    intro x hx
    exact (takenFor_eq_iff x).mp ((htaken x hx).trans (hsame x hx))
  · intro h
    rw [controlTake_agrees bytes h]
    exact ⟨rfl, rfl⟩

/-! ## Decoding -/

section

variable {conn : Connection} {size : Nat}

theorem length_payload (h : size ≤ conn.inp.size) : (conn.inp.toList.take size).length = size :=
  List.length_take_of_le (h.trans (toList_length _).ge)

theorem controlBare_eq (r : ControlRequest) (h : size ≤ conn.inp.size) :
    let found := if (conn.inp.toList.take size).length = 0 then r else .invalid
    controlBare r conn size
      = (some found, { conn with inp := conn.inp.skip (if found = .invalid then 0 else size) }) := by
  have hskip : conn.inp.skip 0 = conn.inp := by simp [skip]
  simp only [length_payload h, controlBare]
  by_cases h0 : size = 0
  · simp [h0, hskip]
  · simp [h0, hskip]

theorem controlPayload_eq {need : Nat} {r : List UInt8 → ControlRequest} (hr : ∀ msg, r msg ≠ .invalid)
    (h : size ≤ conn.inp.size) :
    let payload := conn.inp.toList.take size
    let found := if payload.length = need then r payload else .invalid
    controlPayload need r conn size
      = (some found, { conn with inp := conn.inp.skip (if found = .invalid then 0 else size) }) := by
  have hskip : conn.inp.skip 0 = conn.inp := by simp [skip]
  simp only [length_payload h, controlPayload]
  by_cases hneed : size = need
  · subst hneed
    simp [connectionGet_ok conn h, hr]
  · simp [hneed, hskip]

/-- **The switch of `control_client_handle_opcode`** finds the request of the reference parser in a
payload that has arrived, and takes the payload if it is one. -/
theorem controlDecode_eq (h : size ≤ conn.inp.size) (opcode : Nat) :
    let found := controlRequestOf opcode (conn.inp.toList.take size)
    controlDecode conn opcode size
      = (some found, { conn with inp := conn.inp.skip (if found = .invalid then 0 else size) }) := by
  have hskip : conn.inp.skip 0 = conn.inp := by simp [skip]
  have hunknown : (some ControlRequest.invalid, conn) = (some .invalid,
      { conn with inp := conn.inp.skip (if ControlRequest.invalid = .invalid then 0 else size) }) := by
    rw [if_pos rfl, hskip]
  -- the opcodes from 0 to 5, and those above
  rcases opcode with _ | _ | _ | _ | _ | _ | n
  · exact hunknown
  · exact controlPayload_eq (fun _ => by simp) h
  · exact controlPayload_eq (fun _ => by simp) h
  · exact controlBare_eq .getActiveVt h
  · exact controlBare_eq .findFreeVt h
  · exact controlPayload_eq (fun _ => by simp) h
  · exact hunknown

end

/-! ## Requests as steps -/

theorem Inputs.sendFailed {p : Peer} {s s' : Server} (h : Inputs p s s') (i : ControlId) :
    s'.sendFailed i = s.sendFailed i := h.trace _ fun _ => rfl

section

variable {k : Kernel} {s : Server} {i : ControlId}

theorem step_controlRequest (hi : i ∈ s.controlClients) (r : ControlRequest) :
    step k s (.control i r) = controlHandleRequest k s i r :=
  if_neg (by simp [Step.client, Step.controlClient, hi])

theorem step_controlDisconnect (hi : i ∈ s.controlClients) :
    step k s (.controlDisconnect i) = controlClientDestroy s i :=
  if_neg (by simp [Step.client, Step.controlClient, hi])

/-- A control client that is there is not accepted again. -/
theorem ControlSaid.not_accept {st : Step} {ts : List Talk} (h : ControlSaid s i ts st)
    (hfresh : i < s.nextControlId) : ∀ t ∈ ts, ∀ p, t ≠ .accept p := by
  have hnil : ts = [] → ∀ t ∈ ts, ∀ p, t ≠ .accept p := by rintro rfl; simp
  cases st with
  | control j r =>
      rw [ControlSaid] at h
      split_ifs at h
      · unfold Answered at h
        split_ifs at h
        · exact hnil h
        · obtain ⟨m, ok, -, rfl⟩ := h
          simp
      · exact hnil h
  | vtEvent oldVt newVt =>
      rw [ControlSaid] at h
      split_ifs at h
      · obtain ⟨ok, rfl⟩ := h
        simp
      · exact hnil h
  | controlConnect pid =>
      rcases h with h | ⟨hnext, -⟩
      · exact hnil h
      · exact absurd hnext hfresh.ne
  | controlWritable j =>
      rw [ControlSaid] at h
      split_ifs at h
      · rcases h with ⟨ok, rfl⟩ | rfl <;> simp
      · exact hnil h
  | controlDisconnect j =>
      rw [ControlSaid] at h
      split_ifs at h
      · subst h
        simp
      · exact hnil h
  | connect | request | writable | disconnect | vtRelease | vtAcquire => exact hnil h

/-- **No step reads from a control client's connection.** -/
theorem step_controlInp (h : s.Kept) (hi : i ∈ s.controlClients) (st : Step) :
    ((step k s st).controls i).connection.inp = (s.controls i).connection.inp := by
  obtain ⟨ts, htalk, hsaid⟩ := step_control k h st
  have heffects := (htalk.spec h.sound).effects (.control i)
  have haccept := (hsaid i).not_accept (h.peers.controlsFresh i hi)
  exact Effects.invariant (I := fun ch => ch.connection.inp = (s.controls i).connection.inp) heffects
    (fun t ht _ _ he hin => (he.inp (haccept t ht)).trans hin) rfl

/-- A failed send is not forgotten. -/
theorem sendFailed_step (h : s.Kept) (st : Step) (hs : s.sendFailed i = true) :
    (step k s st).sendFailed i = true := by
  obtain ⟨ts, htalk, -⟩ := step_control k h st
  exact htalk.records.sendFailed hs

/-- **A request that succeeds leaves the control client where it is**; one that does not has failed
to send its reply. -/
theorem handleControlRequest_serves (h : s.Kept) (hi : i ∈ s.controlClients) (r : ControlRequest) :
    if (handleControlRequest k s i r).1 then
      (handleControlRequest k s i r).2 = step k s (.control i r)
        ∧ i ∈ (step k s (.control i r)).controlClients
    else
      controlClientDestroy (handleControlRequest k s i r).2 i = step k s (.control i r)
        ∧ i ∉ (step k s (.control i r)).controlClients
        ∧ (step k s (.control i r)).sendFailed i = true := by
  have hstep := step_controlRequest (k := k) hi r
  rcases handleControlRequest_cases k s i r with
    ⟨hsilent, s₁, hcalls, heq⟩ | ⟨-, s₁, m, hcalls, -, heq⟩
  · rw [if_pos (by rw [heq])]
    refine ⟨?_, (step_silent h hi hsilent).1⟩
    rw [hstep, controlHandleRequest, heq, if_pos rfl]
  · have htalk : Talks k [.message i m (controlSendMessage k s₁ i m).1] s (step k s (.control i r)) := by
      rw [hstep, controlHandleRequest, heq]
      exact .after hcalls (.one ⟨rfl, rfl⟩)
    have hone : talksWith (.control i) [Talk.message i m (controlSendMessage k s₁ i m).1]
        = [.message i m (controlSendMessage k s₁ i m).1] := by simp [talksWith, Talk.peer]
    have htold := htalk.told h hi hone
    rw [heq]
    cases hok : (controlSendMessage k s₁ i m).1 with
    | true =>
        rw [hok, if_pos rfl] at htold
        rw [if_pos rfl]
        refine ⟨?_, htold.1⟩
        rw [hstep, controlHandleRequest, heq, hok, if_pos rfl]
    | false =>
        rw [hok, if_neg Bool.false_ne_true] at htold
        rw [if_neg Bool.false_ne_true]
        refine ⟨?_, htold⟩
        rw [hstep, controlHandleRequest, heq, hok, if_neg Bool.false_ne_true]

end

/-! ## The loop -/

/-- What `control_client_handle_connection` does in the end, without a hangup. -/
def ControlHandled.finish (i : ControlId) (h : ControlHandled) : Server :=
  if h.ok then h.server else controlClientDestroy h.server i

/-- The bytes that have arrived from a control client and wait to be handled. -/
def controlArrived (s : Server) (i : ControlId) : List UInt8 := (s.controls i).connection.inp.toList

/-- The frames that the loop found are those of the daemon's parser. -/
structure ControlParses (k : Kernel) (i : ControlId) (s : Server) (h : ControlHandled) : Prop where
  kept : (h.finish i).Kept
  old : s.nextControlId ≤ (h.finish i).nextControlId
  failed : s.sendFailed i = true → (h.finish i).sendFailed i = true
  present : i ∈ (h.finish i).controlClients ↔ h.ok = true
  ok : h.ok = true →
    (∃ xs, parse controlTake (controlArrived s i) = ⟨xs, false, controlArrived (h.finish i) i⟩
      ∧ xs.map Prod.fst = h.calls.map Prod.fst)
    ∧ (controlArrived (h.finish i) i).length ≤ CONNECTION_BUFFER_SIZE
  /-- A reply could not be sent. -/
  fail : h.ok = false → (h.finish i).sendFailed i = true
    ∧ h.calls.map Prod.fst <+: (parse controlTake (controlArrived s i)).frames.map Prod.fst
    ∧ ∃ s₁ r, s₁.Kept ∧ (handleControlRequest k s₁ i r).1 = false ∧ (r, false) ∈ h.calls

section

variable {k : Kernel} {i : ControlId} {s s₁ : Server}

/-- Nothing more can be done with what has arrived. -/
theorem ControlParses.wait (h : s.Kept) (hi : i ∈ s.controlClients)
    (hring : (controlArrived s i).length ≤ CONNECTION_BUFFER_SIZE) (hin : Inputs (.control i) s s₁)
    (hsame : controlArrived s₁ i = controlArrived s i)
    (hwait : controlTake (controlArrived s i) = .wait) : ControlParses k i s ⟨[], true, s₁⟩ := by
  refine ⟨hin.kept h, hin.nextControlId.ge, fun hf => (hin.sendFailed i).trans hf, ?_,
    fun _ => ⟨⟨[], ?_, rfl⟩, ?_⟩, fun hf => (by cases hf)⟩
  · show i ∈ s₁.controlClients ↔ true = true
    rw [hin.controlClients]
    simp [hi]
  · rw [parse_wait hwait]
    exact congrArg (Parsed.mk [] false) hsame.symm
  · exact (congrArg List.length hsame).trans_le hring

/-- The reply to the first frame cannot be sent. -/
theorem ControlParses.unsent {x : ControlRequest × Nat} {len : Nat} (h : s.Kept)
    (hi : i ∈ s.controlClients) (hin : Inputs (.control i) s s₁)
    (hframe : controlTake (controlArrived s i) = .frame len x)
    (hserve : (handleControlRequest k s₁ i x.1).1 = false) :
    ControlParses k i s ⟨[(x.1, false)], false, (handleControlRequest k s₁ i x.1).2⟩ := by
  have hkept := hin.kept h
  have hserves := handleControlRequest_serves (k := k) hkept (hin.controlClients ▸ hi) x.1
  rw [if_neg (by rw [hserve]; simp)] at hserves
  obtain ⟨hend, hgone, hfailed⟩ := hserves
  have hfinish : ControlHandled.finish i ⟨[(x.1, false)], false, (handleControlRequest k s₁ i x.1).2⟩
      = step k s₁ (.control i x.1) := hend
  refine ⟨?_, ?_, fun _ => ?_, ?_, fun hok => (by cases hok),
    fun _ => ⟨?_, ?_, s₁, x.1, hkept, hserve, List.mem_cons_self⟩⟩
  · rw [hfinish]
    exact kept_step hkept _
  · rw [hfinish, ← hin.nextControlId]
    exact nextControlId_step hkept _
  · rw [hfinish]
    exact hfailed
  · rw [hfinish]
    simp [hgone]
  · rw [hfinish]
    exact hfailed
  · rw [parse_frame controlTake_lawful hframe]
    exact List.cons_prefix_cons.mpr ⟨rfl, List.nil_prefix⟩

/-- The first frame is answered, and the loop goes on. -/
theorem ControlParses.served {x : ControlRequest × Nat} {len : Nat} {rest : ControlHandled}
    (h : s.Kept) (hi : i ∈ s.controlClients) (hin : Inputs (.control i) s s₁)
    (hdrop : controlArrived s₁ i = (controlArrived s i).drop len)
    (hframe : controlTake (controlArrived s i) = .frame len x)
    (hrest : ControlParses k i (step k s₁ (.control i x.1)) rest) :
    ControlParses k i s ⟨(x.1, true) :: rest.calls, rest.ok, rest.server⟩ := by
  have hkept := hin.kept h
  have hring : controlArrived (step k s₁ (.control i x.1)) i = (controlArrived s i).drop len := by
    rw [← hdrop]
    exact congrArg toList (step_controlInp hkept (hin.controlClients ▸ hi) _)
  have hparse := parse_frame controlTake_lawful hframe
  rw [← hring] at hparse
  refine ⟨hrest.kept, ?_, fun hf => ?_, hrest.present, fun hok => ?_, fun hok => ?_⟩
  · exact hin.nextControlId.ge.trans ((nextControlId_step hkept _).trans hrest.old)
  · exact hrest.failed (sendFailed_step hkept _ ((hin.sendFailed i).trans hf))
  · obtain ⟨⟨xs, hxs, hcalls⟩, hsize⟩ := hrest.ok hok
    refine ⟨⟨x :: xs, ?_, congrArg (x.1 :: ·) hcalls⟩, hsize⟩
    rw [hparse, hxs]
    rfl
  · obtain ⟨hfailed, hpre, s₂, r, hkept₂, hunsent, hmem⟩ := hrest.fail hok
    refine ⟨hfailed, ?_, s₂, r, hkept₂, hunsent, List.mem_cons_of_mem _ hmem⟩
    rw [hparse]
    exact List.cons_prefix_cons.mpr ⟨rfl, hpre⟩

theorem controlClientHandleOpcode_eq {opcode size : Nat} {r : ControlRequest} {conn : Connection}
    (h : controlDecode (s.controls i).connection opcode size = (some r, conn)) :
    let s₁ := s.setConnection (.control i) conn
    controlClientHandleOpcode k s i opcode size = ⟨[(r, (handleControlRequest k s₁ i r).1)],
      (handleControlRequest k s₁ i r).1, (handleControlRequest k s₁ i r).2⟩ := by
  intro s₁
  unfold controlClientHandleOpcode
  simp only [h]
  rfl

/-- The connection of a control client after it was set. -/
theorem controls_setConnection (s : Server) (i : ControlId) (conn : Connection) :
    ((s.setConnection (.control i) conn).controls i).connection = conn :=
  connection_setConnection s (.control i) conn

/-- Taking a frame off the ring, as the two reads of the source do. -/
theorem Inputs.take (s : Server) (i : ControlId) (m n : Nat) :
    let conn := (s.controls i).connection
    let s₁ := (s.setConnection (.control i) { conn with inp := conn.inp.skip m }).setConnection
      (.control i) { conn with inp := (conn.inp.skip m).skip n }
    Inputs (.control i) s s₁ ∧ (s₁.controls i).connection.inp = conn.inp.skip (m + n) := by
  intro conn s₁
  refine ⟨.setTwice s (.control i) _ _, ?_⟩
  rw [controls_setConnection, skip_skip]

/-- The verdict on a frame that has arrived completely. -/
theorem controlTake_whole {bytes : List UInt8} (hcap : bytes.length ≤ CONNECTION_BUFFER_SIZE)
    (hwhole : CONTROL_HEADER_SIZE + bytesUint16 (bytes.drop 2) ≤ bytes.length) :
    let size := bytesUint16 (bytes.drop 2)
    let r := controlRequestOf (bytesUint16 bytes) ((bytes.drop CONTROL_HEADER_SIZE).take size)
    controlTake bytes
      = .frame (CONTROL_HEADER_SIZE + if r = .invalid then 0 else size) (r, size) := by
  intro size r
  have hframe : controlFrame bytes = .frame (CONTROL_HEADER_SIZE + size) (r, size) := by
    simp only [controlFrame]
    rw [if_neg (by omega), if_neg (by omega), if_neg (by omega)]
  simp only [controlTake, hframe, takenFor]
  by_cases hr : r = .invalid
  · rw [if_pos hr, if_pos hr]
    rfl
  · rw [if_neg hr, if_neg hr]

/-- **The loop of `control_client_handle_connection` finds the frames of the daemon's parser.** -/
theorem controlHandleFrames_parses (turns : Nat) (h : s.Kept) (hi : i ∈ s.controlClients)
    (hring : (controlArrived s i).length ≤ CONNECTION_BUFFER_SIZE)
    (hturns : (controlArrived s i).length < turns) :
    ControlParses k i s (controlHandleFrames k i turns s) := by
  induction turns generalizing s with
  | zero => omega
  | succ turns ih =>
      set conn := (s.controls i).connection with hconn
      have hlen : (controlArrived s i).length = conn.inp.size := toList_length _
      have hdr : CONTROL_HEADER_SIZE = 4 := rfl
      unfold controlHandleFrames
      by_cases hshort : conn.inp.size < CONTROL_HEADER_SIZE
      · -- not even a header
        rw [connectionGet_short conn hshort]
        refine .wait h hi hring (.setErrno s _ _) rfl ?_
        simp only [controlTake, controlFrame, hlen, if_pos hshort]
      rw [connectionGet_ok conn (by omega)]
      dsimp only
      obtain ⟨hop, hsize⟩ := header_take (by omega : CONTROL_HEADER_SIZE ≤ (controlArrived s i).length)
      rw [show conn.inp.toList = controlArrived s i from rfl,
        show bytesUint16 ((controlArrived s i).take CONTROL_HEADER_SIZE) = _ from hop,
        show bytesUint16 (((controlArrived s i).take CONTROL_HEADER_SIZE).drop 2) = _ from hsize]
      set opcode := bytesUint16 (controlArrived s i) with hopcode
      set size := bytesUint16 ((controlArrived s i).drop 2) with hsz
      have hskip : (conn.inp.skip CONTROL_HEADER_SIZE).size = conn.inp.size - CONTROL_HEADER_SIZE :=
        size_skip _ (by omega)
      by_cases hpart : connectionPending { conn with inp := conn.inp.skip CONTROL_HEADER_SIZE } < size
      · -- the payload has not arrived yet; the header is put back
        rw [if_pos hpart, connectionRestore_skip]
        have hpart' : conn.inp.size - CONTROL_HEADER_SIZE < size := hskip ▸ hpart
        refine .wait h hi hring (.setConnection s (.control i) conn.inp) ?_ ?_
        · unfold controlArrived
          rw [controls_setConnection]
        · simp only [controlTake, controlFrame, hlen, if_neg hshort, ← hsz]
          rw [if_pos (by omega : conn.inp.size < CONTROL_HEADER_SIZE + size)]
          split_ifs <;> first | rfl | omega
      · rw [if_neg hpart]
        have hwhole : CONTROL_HEADER_SIZE + size ≤ conn.inp.size := by
          have := not_lt.mp hpart
          rw [show connectionPending { conn with inp := conn.inp.skip CONTROL_HEADER_SIZE } = _ from hskip]
            at this
          omega
        set conn₁ : Connection := { conn with inp := conn.inp.skip CONTROL_HEADER_SIZE } with hconn₁
        have hpayload : conn₁.inp.toList.take size
            = ((controlArrived s i).drop CONTROL_HEADER_SIZE).take size := by
          rw [hconn₁, toList_skip size_dvd _ (by omega)]
          rfl
        have hframe := controlTake_whole hring (by rw [← hsz]; omega)
        dsimp only at hframe
        rw [← hsz, ← hopcode, ← hpayload] at hframe
        set r := controlRequestOf opcode (conn₁.inp.toList.take size) with hr
        set taken := if r = .invalid then 0 else size with htaken
        have hdecode : controlDecode ((s.setConnection (.control i) conn₁).controls i).connection opcode
            size = (some r, { conn with inp := (conn.inp.skip CONTROL_HEADER_SIZE).skip taken }) := by
          rw [controls_setConnection]
          exact controlDecode_eq (hskip ▸ (by omega : size ≤ conn.inp.size - CONTROL_HEADER_SIZE)) opcode
        rw [controlClientHandleOpcode_eq hdecode]
        obtain ⟨hin, hinp⟩ := Inputs.take s i CONTROL_HEADER_SIZE taken
        set s₁ := (s.setConnection (.control i) conn₁).setConnection (.control i)
          { conn with inp := (conn.inp.skip CONTROL_HEADER_SIZE).skip taken } with hs₁
        have hfit : CONTROL_HEADER_SIZE + taken ≤ conn.inp.size := by
          rw [htaken]
          split_ifs <;> omega
        have hdrop : controlArrived s₁ i
            = (controlArrived s i).drop (CONTROL_HEADER_SIZE + taken) := by
          unfold controlArrived
          rw [hinp, toList_skip size_dvd _ hfit]
        have hkept₁ := hin.kept h
        have hi₁ : i ∈ s₁.controlClients := hin.controlClients ▸ hi
        have hserves := handleControlRequest_serves (k := k) hkept₁ hi₁ r
        by_cases hserve : (handleControlRequest k s₁ i r).1 = true
        · rw [if_pos hserve] at hserves
          rw [if_pos hserve, hserve, hserves.1]
          have hless : (controlArrived (step k s₁ (.control i r)) i).length
              = (controlArrived s i).length - (CONTROL_HEADER_SIZE + taken) := by
            unfold controlArrived at hdrop ⊢
            rw [step_controlInp hkept₁ hi₁, hdrop, List.length_drop]
          have hrest := ih (s := step k s₁ (.control i r)) (kept_step hkept₁ _) hserves.2
            (by omega) (by omega)
          exact .served (x := (r, size)) h hi hin hdrop hframe hrest
        · rw [if_neg hserve, Bool.eq_false_iff.mpr hserve]
          exact .unsent (x := (r, size)) h hi hin hframe (Bool.eq_false_iff.mpr hserve)

end

end DdeSeatd
