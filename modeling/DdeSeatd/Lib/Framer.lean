import Mathlib.Tactic

set_option autoImplicit false

/-! # Cutting a stream into frames

A framer looks at the part of a stream that has arrived and says whether to wait for more,
whether the stream is bad, or how long the first frame is and what it means. `parse` cuts a
whole stream with it.

A framer that does not change its mind when more arrives (`Lawful`) can be run on a stream that
comes in pieces: after every piece the frames found so far are dropped, and what is left is
kept for the next piece. `parse_append` and `parse_append_bad` say that this gives the same
frames as the whole stream.
-/

namespace Framer

inductive Verdict (β : Type) where
  | wait
  | bad
  | frame (len : Nat) (x : β)
  deriving DecidableEq, Repr

/-- The frames of a stream, whether it is bad after them, and what is left of it. -/
structure Parsed (α β : Type) where
  frames : List β
  bad : Bool
  rest : List α
  deriving DecidableEq, Repr

variable {α β : Type} (f : List α → Verdict β)

/-- Cut off at most the given number of frames. -/
def parseLoop : Nat → List α → Parsed α β
  | 0, xs => ⟨[], false, xs⟩
  | fuel + 1, xs =>
      match f xs with
      | .wait => ⟨[], false, xs⟩
      | .bad => ⟨[], true, xs⟩
      | .frame len x =>
          let r := parseLoop fuel (xs.drop len)
          ⟨x :: r.frames, r.bad, r.rest⟩

/-- All frames of a stream. -/
def parse (xs : List α) : Parsed α β := parseLoop f (xs.length + 1) xs

/-- A frame is not empty and has arrived, and a verdict does not change with what follows. -/
structure Lawful : Prop where
  bounds : ∀ {xs len x}, f xs = .frame len x → 0 < len ∧ len ≤ xs.length
  stable : ∀ {xs} ys, f xs ≠ .wait → f (xs ++ ys) = f xs

variable {f}

theorem parse_wait {xs : List α} (h : f xs = .wait) : parse f xs = ⟨[], false, xs⟩ := by
  unfold parse parseLoop
  rw [h]

theorem parse_bad {xs : List α} (h : f xs = .bad) : parse f xs = ⟨[], true, xs⟩ := by
  unfold parse parseLoop
  rw [h]

/-- Fuel beyond the length of the stream makes no difference. -/
theorem parseLoop_eq_parse (hf : Lawful f) {fuel : Nat} {xs : List α} (h : xs.length < fuel) :
    parseLoop f fuel xs = parse f xs := by
  -- two loops with enough fuel agree
  have key : ∀ (fuel fuel' : Nat) (xs : List α), xs.length < fuel → xs.length < fuel' →
      parseLoop f fuel xs = parseLoop f fuel' xs := by
    intro fuel
    induction fuel with
    | zero => intro _ _ h; omega
    | succ fuel ih =>
        intro fuel' xs h h'
        cases fuel' with
        | zero => omega
        | succ fuel' =>
            unfold parseLoop
            cases hv : f xs with
            | wait => rfl
            | bad => rfl
            | frame len x =>
                obtain ⟨hpos, hle⟩ := hf.bounds hv
                have hlen : (xs.drop len).length = xs.length - len := List.length_drop
                dsimp only
                rw [ih fuel' (xs.drop len) (by omega) (by omega)]
  exact key fuel (xs.length + 1) xs h (by omega)

theorem parse_frame (hf : Lawful f) {xs : List α} {len : Nat} {x : β} (h : f xs = .frame len x) :
    parse f xs = ⟨x :: (parse f (xs.drop len)).frames, (parse f (xs.drop len)).bad,
      (parse f (xs.drop len)).rest⟩ := by
  obtain ⟨hpos, hle⟩ := hf.bounds h
  have hlen : (xs.drop len).length < xs.length := by rw [List.length_drop]; omega
  conv_lhs => unfold parse parseLoop
  rw [h]
  dsimp only
  rw [parseLoop_eq_parse hf hlen]

/-- **Induction along the frames of a stream.** -/
theorem parse_induction (hf : Lawful f) {P : List α → Prop} (hwait : ∀ xs, f xs = .wait → P xs)
    (hbad : ∀ xs, f xs = .bad → P xs)
    (hframe : ∀ xs len x, f xs = .frame len x → P (xs.drop len) → P xs) (xs : List α) : P xs := by
  induction hn : xs.length using Nat.strong_induction_on generalizing xs with
  | _ n ih =>
      cases hv : f xs with
      | wait => exact hwait xs hv
      | bad => exact hbad xs hv
      | frame len x =>
          obtain ⟨hpos, hle⟩ := hf.bounds hv
          have hlen : (xs.drop len).length < n := by rw [List.length_drop]; omega
          exact hframe xs len x hv (ih _ hlen (xs.drop len) rfl)

/-- What is left of a stream that is not bad is the beginning of a frame. -/
theorem parse_rest (hf : Lawful f) (xs : List α) (h : (parse f xs).bad = false) :
    f (parse f xs).rest = .wait := by
  induction xs using parse_induction hf with
  | hwait xs hv => rw [parse_wait hv]; exact hv
  | hbad xs hv => rw [parse_bad hv] at h; cases h
  | hframe xs len x hv ih =>
      rw [parse_frame hf hv] at h ⊢
      exact ih h

/-- **A stream in two pieces**: the frames of the first piece, then those of what it left over
together with the second. -/
theorem parse_append (hf : Lawful f) (xs ys : List α) (h : (parse f xs).bad = false) :
    parse f (xs ++ ys) = ⟨(parse f xs).frames ++ (parse f ((parse f xs).rest ++ ys)).frames,
      (parse f ((parse f xs).rest ++ ys)).bad, (parse f ((parse f xs).rest ++ ys)).rest⟩ := by
  induction xs using parse_induction hf with
  | hwait xs hv => rw [parse_wait hv]; rfl
  | hbad xs hv => rw [parse_bad hv] at h; cases h
  | hframe xs len x hv ih =>
      obtain ⟨-, hle⟩ := hf.bounds hv
      have hv' : f (xs ++ ys) = .frame len x := by rw [hf.stable ys (by simp [hv]), hv]
      rw [parse_frame hf hv] at h ⊢
      rw [parse_frame hf hv', List.drop_append_of_le_length hle, ih h]
      rfl

theorem parse_more (hf : Lawful f) {xs rest : List α} {ys : List β}
    (h : parse f xs = ⟨ys, false, rest⟩) (more : List α) :
    parse f (xs ++ more) = ⟨ys ++ (parse f (rest ++ more)).frames, (parse f (rest ++ more)).bad,
      (parse f (rest ++ more)).rest⟩ := by
  have happend := parse_append hf xs more (by rw [h])
  rwa [h] at happend

/-- A stream that is bad stays so, with the same frames. -/
theorem parse_append_bad (hf : Lawful f) (xs ys : List α) (h : (parse f xs).bad = true) :
    (parse f (xs ++ ys)).frames = (parse f xs).frames ∧ (parse f (xs ++ ys)).bad = true := by
  induction xs using parse_induction hf with
  | hwait xs hv => rw [parse_wait hv] at h; cases h
  | hbad xs hv =>
      have hv' : f (xs ++ ys) = .bad := by rw [hf.stable ys (by simp [hv]), hv]
      rw [parse_bad hv, parse_bad hv']
      exact ⟨rfl, rfl⟩
  | hframe xs len x hv ih =>
      obtain ⟨-, hle⟩ := hf.bounds hv
      have hv' : f (xs ++ ys) = .frame len x := by rw [hf.stable ys (by simp [hv]), hv]
      rw [parse_frame hf hv] at h ⊢
      rw [parse_frame hf hv', List.drop_append_of_le_length hle]
      obtain ⟨hframes, hbad⟩ := ih h
      exact ⟨congrArg (x :: ·) hframes, hbad⟩

/-- Where the length of a frame can be told from the frame, the frames and the rest make up the
stream. -/
theorem parse_length (hf : Lawful f) {w : β → Nat} (hw : ∀ {xs len x}, f xs = .frame len x → len = w x)
    (xs : List α) :
    xs.length = ((parse f xs).frames.map w).sum + (parse f xs).rest.length := by
  induction xs using parse_induction hf with
  | hwait xs hv => rw [parse_wait hv]; simp
  | hbad xs hv => rw [parse_bad hv]; simp
  | hframe xs len x hv ih =>
      obtain ⟨-, hle⟩ := hf.bounds hv
      rw [parse_frame hf hv, List.map_cons, List.sum_cons, ← hw hv]
      rw [List.length_drop] at ih
      dsimp only
      omega

/-- A fact about single frames holds of all frames of a stream. -/
theorem forall_mem_frames (hf : Lawful f) {Q : β → Prop} (hQ : ∀ {xs len x}, f xs = .frame len x → Q x)
    (xs : List α) : ∀ x ∈ (parse f xs).frames, Q x := by
  induction xs using parse_induction hf with
  | hwait xs hv => rw [parse_wait hv]; simp
  | hbad xs hv => rw [parse_bad hv]; simp
  | hframe xs len x hv ih =>
      rw [parse_frame hf hv]
      intro y hy
      rcases List.mem_cons.mp hy with rfl | hy
      · exact hQ hv
      · exact ih y hy

/-- More of the stream only adds frames. -/
theorem parse_frames_mono (hf : Lawful f) (xs ys : List α) :
    (parse f xs).frames <+: (parse f (xs ++ ys)).frames := by
  cases h : (parse f xs).bad with
  | true => rw [(parse_append_bad hf xs ys h).1]
  | false =>
      rw [parse_append hf xs ys h]
      exact List.prefix_append _ _

/-! ## Frames with a header -/

/-- A frame is a header and a payload, whose size the header says; `body` is what the header says
about a payload. A frame that is longer than `cap` is bad as soon as more than `cap` has arrived. -/
def headed (header cap : Nat) (size : List α → Nat) (body : List α → Nat → List α → Verdict β)
    (xs : List α) : Verdict β :=
  if xs.length < header then .wait
  else if cap < header + size xs then if cap < xs.length then .bad else .wait
  else if xs.length < header + size xs then .wait
  else body xs (size xs) ((xs.drop header).take (size xs))

section

variable {header cap : Nat} {size : List α → Nat} {body : List α → Nat → List α → Verdict β}

theorem headed_lawful (hsize : ∀ xs ys, header ≤ xs.length → size (xs ++ ys) = size xs)
    (hbody : ∀ xs ys, header ≤ xs.length → body (xs ++ ys) = body xs)
    (hbounds : ∀ xs n ys len x, body xs n ys = .frame len x → 0 < len ∧ len ≤ header + n) :
    Lawful (headed header cap size body) where
  bounds := by
    intro xs len x h
    unfold headed at h
    split_ifs at h with h1 h2 h3 h4
    exact (hbounds _ _ _ _ _ h).imp_right fun hle => by omega
  stable := by
    intro xs ys h
    unfold headed at h ⊢
    by_cases h1 : xs.length < header
    · exact absurd (if_pos h1) h
    have hheader : header ≤ xs.length := by omega
    rw [if_neg h1] at h ⊢
    rw [hsize xs ys hheader, hbody xs ys hheader, List.length_append, if_neg (by omega)]
    by_cases h2 : cap < header + size xs
    · simp only [if_pos h2] at h ⊢
      by_cases h3 : cap < xs.length
      · rw [if_pos h3, if_pos (by omega)]
      · exact absurd (if_neg h3) h
    · simp only [if_neg h2] at h ⊢
      by_cases h3 : xs.length < header + size xs
      · exact absurd (if_pos h3) h
      · -- the frame is complete, so its payload does not change
        rw [if_neg h3, if_neg (by omega), List.drop_append_of_le_length hheader,
          List.take_append_of_le_length (by rw [List.length_drop]; omega)]

/-- If as much as a frame can have waits for more, the frame does not fit. -/
theorem headed_full (hsize : ∀ xs ys, header ≤ xs.length → size (xs ++ ys) = size xs)
    (hbody : ∀ xs n ys, body xs n ys ≠ .wait) (hcap : header ≤ cap) {xs ys : List α}
    (hlen : xs.length = cap) (h : headed header cap size body xs = .wait) (hys : ys ≠ []) :
    headed header cap size body (xs ++ ys) = .bad := by
  have hpos : 0 < ys.length := List.length_pos_iff.mpr hys
  unfold headed at h ⊢
  rw [if_neg (by omega)] at h
  rw [hsize xs ys (by omega), List.length_append, if_neg (by omega)]
  by_cases hbig : cap < header + size xs
  · rw [if_pos hbig, if_pos (by omega)]
  · rw [if_neg hbig, if_neg (by omega)] at h
    exact absurd h (hbody _ _ _)

end

end Framer
