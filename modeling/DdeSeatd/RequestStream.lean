import DdeSeatd.Framing

set_option autoImplicit false

/-! # A stream of requests

What the daemon makes of a stream that consists of requests of the library, one after the other:
these requests, in their order, up to the first one that does not fit into the in ring
(`parse_requests`). The same goes for any beginning of such a stream.
-/

namespace DdeSeatd

open Framer

/-- The bytes of a request. -/
def Request.bytes (r : Request) : List UInt8 := r.parts.flatten

/-- What C can hand to the library and the library sends: paths are strings that are not too long,
and ids are of type `int`. -/
def Request.Valid : Request → Prop
  | .openDevice path => 0 ∉ path ∧ path.length + 1 ≤ MAX_PATH_LEN
  | .closeDevice i | .switchSession i => -2 ^ 31 ≤ i ∧ i < 2 ^ 31
  | .openSeat | .closeSeat | .disableSeat | .ping => True

theorem bytesInt_intBytes_of_int {i : Int} (h : -2 ^ 31 ≤ i ∧ i < 2 ^ 31) :
    bytesInt (intBytes i) = i := by
  rw [bytesInt_intBytes]
  exact Int.bmod_eq_of_le (by omega) (by omega)

/-- A header with its payload, if they fit. -/
theorem requestFrame_payload {opcode : Nat} {payload : List UInt8} {r : Request}
    (hopcode : opcode < 2 ^ 16) (hfit : payload.length ≤ 4)
    (hr : requestOf opcode payload = some r) (after : List UInt8) :
    requestFrame (headerBytes opcode payload.length ++ payload ++ after)
      = .frame (PROTO_HEADER_SIZE + payload.length) r := by
  have hdr : PROTO_HEADER_SIZE = 4 := rfl
  have hcap : CONNECTION_BUFFER_SIZE = 256 := rfl
  set bytes := headerBytes opcode payload.length ++ payload ++ after with hbytes
  have hshape : bytes = headerBytes opcode payload.length ++ (payload ++ after) := by
    rw [hbytes, List.append_assoc]
  have hlength : bytes.length = 4 + payload.length + after.length := by
    simp [hbytes, headerBytes]
    omega
  have hop : bytesUint16 bytes = opcode := by
    rw [hshape]
    exact bytesUint16_uint16Bytes hopcode
  have hsize : bytesUint16 (bytes.drop 2) = payload.length := by
    rw [hshape]
    exact bytesUint16_uint16Bytes (v := payload.length) (by omega)
  have htake : (bytes.drop PROTO_HEADER_SIZE).take payload.length = payload := by
    rw [hshape]
    exact List.take_left
  simp only [requestFrame, hop, hsize, htake, hr]
  rw [if_neg (by omega), if_neg (by omega), if_neg (by omega)]

/-- The reference parser about a request and what follows it. -/
theorem requestFrame_bytes {r : Request} (h : r.Valid) (after : List UInt8) :
    requestFrame (r.bytes ++ after) = .frame r.bytes.length r
      ∨ requestFrame (r.bytes ++ after) = .bad := by
  have hbare : ∀ opcode, opcode < 2 ^ 16 → requestOf opcode [] = some r →
      r.bytes = headerBytes opcode 0 → requestFrame (r.bytes ++ after) = .frame r.bytes.length r := by
    intro opcode hopcode hr hbytes
    rw [hbytes]
    have hframe := requestFrame_payload hopcode (by simp) hr after
    rwa [List.length_nil, List.append_nil] at hframe
  have hint : ∀ opcode i, opcode < 2 ^ 16 → requestOf opcode (intBytes i) = some r →
      r.bytes = headerBytes opcode 4 ++ intBytes i →
      requestFrame (r.bytes ++ after) = .frame r.bytes.length r := by
    intro opcode i hopcode hr hbytes
    rw [hbytes]
    exact requestFrame_payload hopcode (by simp) hr after
  cases r with
  | openSeat => exact .inl (hbare 1 (by decide) rfl rfl)
  | closeSeat => exact .inl (hbare 2 (by decide) rfl rfl)
  | disableSeat => exact .inl (hbare 5 (by decide) rfl rfl)
  | ping => exact .inl (hbare 7 (by decide) rfl rfl)
  | closeDevice i =>
      refine .inl (hint 4 i (by decide) ?_ (by simp [Request.bytes, Request.parts, frameParts,
        Request.payload, Request.opcode]))
      simp [requestOf, bytesInt_intBytes_of_int h]
  | switchSession i =>
      refine .inl (hint 6 i (by decide) ?_ (by simp [Request.bytes, Request.parts, frameParts,
        Request.payload, Request.opcode]))
      simp [requestOf, bytesInt_intBytes_of_int h]
  | openDevice path =>
      have hframe := requestFrame_openDevice h.1 h.2 after
      unfold Request.bytes
      rw [hframe, openDevice_length]
      split_ifs
      · exact .inl rfl
      · exact .inr rfl

/-- **The daemon reads the requests that were sent**, in their order. -/
theorem parse_requests {rs : List Request} (h : ∀ r ∈ rs, r.Valid) :
    (parse requestFrame (rs.flatMap Request.bytes)).frames <+: rs := by
  induction rs with
  | nil =>
      rw [List.flatMap_nil, parse_wait (by rfl)]
  | cons r rs ih =>
      rw [List.flatMap_cons]
      rcases requestFrame_bytes (h r List.mem_cons_self) (rs.flatMap Request.bytes) with
        hframe | hbad
      · rw [parse_frame requestFrame_lawful hframe, List.drop_left]
        exact List.cons_prefix_cons.mpr ⟨rfl, ih fun r' hr' => h r' (List.mem_cons_of_mem r hr')⟩
      · rw [parse_bad hbad]
        exact List.nil_prefix

/-- The beginning of a stream of requests. -/
theorem parse_requests_begun {rs : List Request} (h : ∀ r ∈ rs, r.Valid) {stream : List UInt8}
    (hstream : stream <+: rs.flatMap Request.bytes) :
    (parse requestFrame stream).frames <+: rs := by
  obtain ⟨rest, hrest⟩ := hstream
  have hmono := parse_frames_mono requestFrame_lawful stream rest
  rw [hrest] at hmono
  exact hmono.trans (parse_requests h)

end DdeSeatd
