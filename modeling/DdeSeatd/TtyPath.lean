import DdeSeatd.Basic
import DdeSeatd.Lib.Buffer

set_option autoImplicit false

/-! # FreeBSD's tty names (`get_tty_path` of `common/terminal.c`)

The name of a tty is `/dev/ttyv` and a number in base 32. The source writes the digits into a
buffer of sixteen bytes, least significant first, and turns them around in place; a number of
seven digits does not fit, and is refused.

The buffer is a list of bytes that an access may not leave (`Buffer`). The result is compared with
`ttyNumeral`, the number's digits as Mathlib has them. The variants for Linux and NetBSD are one
`snprintf` each and are left out.
-/

namespace DdeSeatd

open Buffer

def TTYPATHLEN : Nat := 16

def TTYV_PREFIX : CString := ascii ['/', 'd', 'e', 'v', '/', 't', 't', 'y', 'v']

/-- A digit: `0` to `9`, then `a` to `v`. -/
def ttyDigit (value : Nat) : UInt8 :=
  if 10 ≤ value then UInt8.ofNat ('a'.toNat + value - 10) else UInt8.ofNat ('0'.toNat + value)

/-- The loop that writes the digits of `remaining` from `offset` on: the offset behind them, or
`none` if the buffer is too small, and the buffer. -/
def ttyDigitLoop (remaining offset : Nat) (path : List UInt8) :
    Option (Option Nat × List UInt8) :=
  if remaining = 0 then some (some offset, path)
  else if TTYPATHLEN ≤ offset + 1 then some (none, path)
  else (store path offset (ttyDigit (remaining % 32))).bind fun path =>
    ttyDigitLoop (remaining / 32) (offset + 1) path
termination_by remaining

/-- What `get_tty_path` returns, the `errno` it sets, and the buffer. -/
structure TtyPath where
  ret : Int
  errno : Option Nat
  path : List UInt8
  deriving DecidableEq, Repr

/-- The part of `get_tty_path` after the prefix, for the kernel's number of the tty. -/
def putTtyNumber (tty : Nat) (path : List UInt8) : Option TtyPath :=
  let offset := TTYV_PREFIX.length
  if tty = 0 then
    (store path offset (ttyDigit 0)).bind fun path =>
      (store path (offset + 1) 0).map fun path => ⟨0, none, path⟩
  else
    (ttyDigitLoop tty offset path).bind fun r =>
      match r.1 with
      | none => some ⟨-1, some ENOMEM, r.2⟩
      | some stop =>
          (reverseLoop offset stop ((stop - offset) / 2) 0 r.2).bind fun path =>
            (store path stop 0).map fun path => ⟨0, none, path⟩

/-- `get_tty_path`; `none` if the assertion fails or an access leaves the buffer. -/
def getTtyPath (tty : Int) (path : List UInt8) : Option TtyPath :=
  if tty < 0 then none
  else
    (storeAll path 0 (TTYV_PREFIX ++ [0])).bind fun path =>
      putTtyNumber (if 0 < tty then tty - 1 else tty).toNat path

/-! ## Numerals -/

/-- The number in base 32, most significant digit first. -/
def ttyNumeral (n : Nat) : CString :=
  if n = 0 then [ttyDigit 0] else ((Nat.digits 32 n).map ttyDigit).reverse

/-- The value of a digit. -/
def ttyDigitValue (b : UInt8) : Nat :=
  if 'a'.toNat ≤ b.toNat then b.toNat - 'a'.toNat + 10 else b.toNat - '0'.toNat

theorem ttyDigitValue_ttyDigit : ∀ d, d < 32 → ttyDigitValue (ttyDigit d) = d := by decide

theorem ttyDigit_ne_nul : ∀ d, d < 32 → ttyDigit d ≠ 0 := by decide

/-- Read a numeral back. -/
def ttyNumber (bs : CString) : Nat := Nat.ofDigits 32 (bs.reverse.map ttyDigitValue)

theorem ttyNumber_ttyNumeral (n : Nat) : ttyNumber (ttyNumeral n) = n := by
  by_cases hn : n = 0
  · subst hn
    decide
  · have hdigits : ((Nat.digits 32 n).map ttyDigit).map ttyDigitValue = Nat.digits 32 n := by
      rw [List.map_map]
      refine (List.map_congr_left fun d hd => ?_).trans (List.map_id' _)
      exact ttyDigitValue_ttyDigit d (Nat.digits_lt_base (by decide) hd)
    rw [ttyNumber, ttyNumeral, if_neg hn, List.reverse_reverse, hdigits, Nat.ofDigits_digits]

theorem ttyNumeral_ne_nul (n : Nat) : ∀ b ∈ ttyNumeral n, b ≠ 0 := by
  intro b hb
  unfold ttyNumeral at hb
  split_ifs at hb with hn
  · rw [List.mem_singleton.mp hb]
    decide
  · obtain ⟨d, hd, rfl⟩ := List.mem_map.mp (List.mem_reverse.mp hb)
    exact ttyDigit_ne_nul d (Nat.digits_lt_base (by decide) hd)

/-! ## The digit loop -/

theorem digits_of_ne_zero {n : Nat} (hn : n ≠ 0) :
    Nat.digits 32 n = n % 32 :: Nat.digits 32 (n / 32) :=
  Nat.digits_def' (by decide) (Nat.pos_of_ne_zero hn)

/-- The digits fit: they are written over what was there, least significant first. -/
theorem ttyDigitLoop_fits (n : Nat) : ∀ (pre old rest : List UInt8) {offset : Nat},
    offset = pre.length → old.length = (Nat.digits 32 n).length →
    offset + old.length < TTYPATHLEN →
    ttyDigitLoop n offset (pre ++ (old ++ rest))
      = some (some (offset + old.length), pre ++ ((Nat.digits 32 n).map ttyDigit ++ rest)) := by
  -- on the number that remains: a round writes its last digit and drops it
  induction n using Nat.strong_induction_on with
  | _ n ih =>
      intro pre old rest offset hoff hlen hfits
      rw [ttyDigitLoop]
      by_cases hn : n = 0
      · subst hn
        rw [List.length_eq_zero_iff.mp hlen]
        simp
      · rw [digits_of_ne_zero hn] at hlen ⊢
        obtain ⟨o, old, rfl⟩ := List.exists_cons_of_length_eq_add_one hlen
        simp only [List.length_cons] at hlen hfits
        have hpre : offset + 1 = (pre ++ [ttyDigit (n % 32)]).length := by simp [hoff]
        have hrest := ih (n / 32) (Nat.div_lt_self (by omega) (by decide))
          (pre ++ [ttyDigit (n % 32)]) old rest hpre (by omega) (by omega)
        simp only [List.append_assoc, List.singleton_append] at hrest
        rw [if_neg hn, if_neg (by omega), List.cons_append, store_append pre _ o _ hoff,
          Option.bind_some, hrest]
        simp only [List.length_cons, List.map_cons, List.cons_append]
        rw [Nat.add_assoc, Nat.add_comm 1]

theorem store_in {buf : List UInt8} {i : Nat} (h : i < buf.length) (b : UInt8) :
    ∃ buf', store buf i b = some buf' ∧ buf'.length = buf.length :=
  ⟨buf.set i b, if_pos h, List.length_set⟩

/-- The digits do not fit: the loop stops before it would leave the buffer. -/
theorem ttyDigitLoop_full (n : Nat) : ∀ {offset : Nat} {path : List UInt8},
    path.length = TTYPATHLEN → offset < TTYPATHLEN →
    TTYPATHLEN ≤ offset + (Nat.digits 32 n).length →
    ∃ path', ttyDigitLoop n offset path = some (none, path') ∧ path'.length = TTYPATHLEN := by
  induction n using Nat.strong_induction_on with
  | _ n ih =>
      intro offset path hlen hoff hfull
      have hn : n ≠ 0 := by
        rintro rfl
        simp at hfull
        omega
      rw [ttyDigitLoop, if_neg hn]
      by_cases hlast : TTYPATHLEN ≤ offset + 1
      · exact ⟨path, if_pos hlast, hlen⟩
      · rw [digits_of_ne_zero hn, List.length_cons] at hfull
        obtain ⟨buf, hstore, hbuf⟩ := store_in (i := offset) (hlen.symm ▸ hoff)
          (ttyDigit (n % 32))
        rw [if_neg hlast, hstore, Option.bind_some]
        exact ih (n / 32) (Nat.div_lt_self (by omega) (by decide)) (hbuf.trans hlen) (by omega)
          (by omega)

/-! ## The name -/

/-- The kernel's number of a tty: one less, and the first one for 0. -/
def ttyUnit (tty : Int) : Nat := (max (tty - 1) 0).toNat

theorem digits_fit_iff (n : Nat) : (Nat.digits 32 n).length ≤ 6 ↔ n < 32 ^ 6 :=
  Nat.digits_length_le_iff (by decide) n

/-- A number of at most six digits is written behind the prefix, and ends the string. -/
theorem putTtyNumber_fits {n : Nat} (hn : n < 32 ^ 6) {tail : List UInt8}
    (htail : TTYV_PREFIX.length + tail.length = TTYPATHLEN) :
    ∃ rest, putTtyNumber n (TTYV_PREFIX ++ tail)
        = some ⟨0, none, TTYV_PREFIX ++ (ttyNumeral n ++ 0 :: rest)⟩
      ∧ (TTYV_PREFIX ++ (ttyNumeral n ++ 0 :: rest)).length = TTYPATHLEN := by
  have hpre : TTYV_PREFIX.length = 9 := rfl
  have hsize : TTYPATHLEN = 16 := rfl
  by_cases h0 : n = 0
  · subst h0
    obtain ⟨a, tail, rfl⟩ := List.exists_cons_of_length_pos (by omega : 0 < tail.length)
    simp only [List.length_cons] at htail
    obtain ⟨b, rest, rfl⟩ := List.exists_cons_of_length_pos (by omega : 0 < tail.length)
    have hnul := store_append (TTYV_PREFIX ++ [ttyDigit 0]) rest b 0
      (i := TTYV_PREFIX.length + 1) (by simp)
    simp only [List.append_assoc, List.singleton_append] at hnul
    refine ⟨rest, ?_, ?_⟩
    · simp only [putTtyNumber, if_true, store_append TTYV_PREFIX _ a _ rfl, Option.bind_some, hnul,
        Option.map_some, ttyNumeral, List.singleton_append]
    · simp only [ttyNumeral, if_true, List.length_append, List.length_cons, List.length_nil]
        at htail ⊢
      omega
  · have hdigits := (digits_fit_iff n).mpr hn
    -- the cells the digits take, the one for the NUL, and what stays as it was
    obtain ⟨old, b, rest, rfl, hold⟩ : ∃ old b rest, tail = old ++ b :: rest
        ∧ old.length = (Nat.digits 32 n).length := by
      refine ⟨tail.take (Nat.digits 32 n).length, _, _, (List.take_append_drop _ _).symm.trans
        (congrArg _ (List.drop_eq_getElem_cons (by omega))), ?_⟩
      rw [List.length_take]
      omega
    simp only [List.length_append, List.length_cons] at htail
    have hloop := ttyDigitLoop_fits n TTYV_PREFIX old (b :: rest) rfl hold (by omega)
    have hrev := reverseLoop_append TTYV_PREFIX.length (TTYV_PREFIX.length + old.length)
      (old.length / 2) (i := 0) TTYV_PREFIX ((Nat.digits 32 n).map ttyDigit) (b :: rest) rfl
      (by simp [hold]) (by simp [hold])
    have hnul := store_append (TTYV_PREFIX ++ ((Nat.digits 32 n).map ttyDigit).reverse) rest b 0
      (i := TTYV_PREFIX.length + old.length) (by simp [hold])
    simp only [List.append_assoc] at hnul
    refine ⟨rest, ?_, ?_⟩
    · simp only [putTtyNumber, if_neg h0, hloop, Option.bind_some, Nat.add_sub_cancel_left, hrev,
        hnul, Option.map_some, ttyNumeral]
    · simp only [ttyNumeral, if_neg h0, List.length_append, List.length_cons, List.length_reverse,
        List.length_map]
      omega

/-- A number of seven digits or more is refused. -/
theorem putTtyNumber_full {n : Nat} (hn : 32 ^ 6 ≤ n) {path : List UInt8}
    (hlen : path.length = TTYPATHLEN) :
    ∃ path', putTtyNumber n path = some ⟨-1, some ENOMEM, path'⟩ ∧ path'.length = TTYPATHLEN := by
  have hdigits : ¬ (Nat.digits 32 n).length ≤ 6 := fun h =>
    absurd ((digits_fit_iff n).mp h) (Nat.not_lt.mpr hn)
  have h0 : n ≠ 0 := by
    rintro rfl
    exact absurd hn (by decide)
  have hpre : TTYV_PREFIX.length = 9 := rfl
  have hsize : TTYPATHLEN = 16 := rfl
  have hstart : TTYV_PREFIX.length < TTYPATHLEN := by decide
  obtain ⟨path', hloop, hlen'⟩ := ttyDigitLoop_full n hlen hstart (by omega)
  refine ⟨path', ?_, hlen'⟩
  simp only [putTtyNumber, if_neg h0, hloop, Option.bind_some]

/-- The prefix and its NUL are copied to the start of the buffer. -/
theorem storeAll_ttyPrefix {path : List UInt8} (hlen : path.length = TTYPATHLEN) :
    ∃ tail, storeAll path 0 (TTYV_PREFIX ++ [0]) = some (TTYV_PREFIX ++ tail)
      ∧ TTYV_PREFIX.length + tail.length = TTYPATHLEN := by
  have hsplit := storeAll_append (TTYV_PREFIX ++ [0]) [] (path.take 10) (path.drop 10) (i := 0) rfl
    (by rw [List.length_take, hlen]; rfl)
  rw [List.nil_append, List.take_append_drop, List.nil_append, List.append_assoc] at hsplit
  refine ⟨_, hsplit, ?_⟩
  rw [List.length_append, List.length_drop, hlen]
  rfl

theorem ttyUnit_eq {tty : Int} (h : 0 ≤ tty) :
    (if 0 < tty then tty - 1 else tty).toNat = ttyUnit tty := by
  unfold ttyUnit
  split_ifs <;> omega

/-- The string in a buffer. -/
def bufferString (path : List UInt8) : CString := path.takeWhile (· ≠ 0)

theorem bufferString_name (n : Nat) (rest : List UInt8) :
    bufferString (TTYV_PREFIX ++ (ttyNumeral n ++ 0 :: rest)) = TTYV_PREFIX ++ ttyNumeral n := by
  have hpre : ∀ b ∈ TTYV_PREFIX, b ≠ 0 := by
    simp [TTYV_PREFIX, ascii]
  have hbytes : ∀ b ∈ TTYV_PREFIX ++ ttyNumeral n, decide (b ≠ 0) = true := by
    intro b hb
    rw [decide_eq_true_iff]
    exact (List.mem_append.mp hb).elim (hpre b) (ttyNumeral_ne_nul n b)
  rw [bufferString, ← List.append_assoc, List.takeWhile_append_of_pos hbytes]
  simp

/-- What `get_tty_path` is to do: stay in the buffer, refuse the numbers that do not fit, and
write the name of the others. -/
theorem getTtyPath_spec {tty : Int} (h : 0 ≤ tty) {path : List UInt8}
    (hlen : path.length = TTYPATHLEN) :
    ∃ out, getTtyPath tty path = some out ∧ out.path.length = TTYPATHLEN
      ∧ (32 ^ 6 ≤ ttyUnit tty → out.ret = -1 ∧ out.errno = some ENOMEM)
      ∧ (ttyUnit tty < 32 ^ 6 → out.ret = 0 ∧ out.errno = none
          ∧ TTYV_PREFIX ++ ttyNumeral (ttyUnit tty) ++ [0] <+: out.path
          ∧ bufferString out.path = TTYV_PREFIX ++ ttyNumeral (ttyUnit tty)) := by
  obtain ⟨tail, hstart, htail⟩ := storeAll_ttyPrefix hlen
  have heq : getTtyPath tty path = putTtyNumber (ttyUnit tty) (TTYV_PREFIX ++ tail) := by
    simp only [getTtyPath, if_neg (Int.not_lt.mpr h), hstart, Option.bind_some, ttyUnit_eq h]
  by_cases hfits : ttyUnit tty < 32 ^ 6
  · obtain ⟨rest, hput, hlen'⟩ := putTtyNumber_fits hfits htail
    refine ⟨_, heq.trans hput, hlen', fun hfull => absurd hfits (Nat.not_lt.mpr hfull),
      fun _ => ⟨rfl, rfl, ⟨rest, by simp⟩, bufferString_name _ rest⟩⟩
  · have hbuf : (TTYV_PREFIX ++ tail).length = TTYPATHLEN := by rw [List.length_append, htail]
    obtain ⟨path', hput, hlen'⟩ := putTtyNumber_full (Nat.not_lt.mp hfits) hbuf
    exact ⟨_, heq.trans hput, hlen', fun _ => ⟨rfl, rfl⟩, fun h => absurd h hfits⟩

/-- A call that returns 0 has left the name in its buffer. -/
theorem getTtyPath_name {tty : Int} {path : List UInt8} {out : TtyPath} (h : 1 ≤ tty)
    (hlen : path.length = TTYPATHLEN) (hout : getTtyPath tty path = some out)
    (hret : out.ret = 0) : bufferString out.path = TTYV_PREFIX ++ ttyNumeral (ttyUnit tty) := by
  obtain ⟨o, ho, -, hfull, hfits⟩ := getTtyPath_spec (by omega : 0 ≤ tty) hlen
  obtain rfl : o = out := Option.some.inj (ho.symm.trans hout)
  refine (hfits (Nat.not_le.mp fun hle => ?_)).2.2.2
  rw [(hfull hle).1] at hret
  exact absurd hret (by decide)

theorem ttyUnit_injective {tty tty' : Int} (h : 1 ≤ tty) (h' : 1 ≤ tty')
    (heq : ttyUnit tty = ttyUnit tty') : tty = tty' := by
  unfold ttyUnit at heq
  omega

/-- **FreeBSD's tty names.** For every tty, `get_tty_path` returns without leaving the buffer. It
refuses exactly the numbers of more than six digits, and otherwise leaves the name in the buffer,
with its NUL; names of different ttys differ. -/
theorem getTtyPath_names :
    (∀ (tty : Int) (path : List UInt8), 0 ≤ tty → path.length = TTYPATHLEN →
      ∃ out, getTtyPath tty path = some out ∧ out.path.length = TTYPATHLEN
        ∧ (out.ret = -1 ↔ 32 ^ 6 ≤ max (tty - 1) 0)
        ∧ (out.ret ≠ -1 → out.ret = 0
          ∧ TTYV_PREFIX ++ ttyNumeral (max (tty - 1) 0).toNat ++ [0] <+: out.path))
    ∧ ∀ (tty tty' : Int) (path path' : List UInt8) (out out' : TtyPath), 1 ≤ tty → 1 ≤ tty' →
      path.length = TTYPATHLEN → path'.length = TTYPATHLEN →
      getTtyPath tty path = some out → getTtyPath tty' path' = some out' →
      out.ret = 0 → out'.ret = 0 → bufferString out.path = bufferString out'.path →
      tty = tty' := by
  have hunit : ∀ tty : Int, (32 ^ 6 ≤ max (tty - 1) 0 ↔ 32 ^ 6 ≤ ttyUnit tty) := fun tty => by
    unfold ttyUnit
    omega
  constructor
  · intro tty path h hlen
    obtain ⟨out, hout, hlen', hfull, hfits⟩ := getTtyPath_spec h hlen
    refine ⟨out, hout, hlen', ?_, ?_⟩
    · rw [hunit]
      by_cases hle : 32 ^ 6 ≤ ttyUnit tty
      · exact iff_of_true (hfull hle).1 hle
      · refine iff_of_false (fun hret => ?_) hle
        rw [(hfits (Nat.not_le.mp hle)).1] at hret
        exact absurd hret (by decide)
    · intro hret
      have hlt : ttyUnit tty < 32 ^ 6 := Nat.not_le.mp fun hle => hret (hfull hle).1
      exact ⟨(hfits hlt).1, (hfits hlt).2.2.1⟩
  · intro tty tty' path path' out out' h h' hlen hlen' hout hout' hret hret' hname
    rw [getTtyPath_name h hlen hout hret, getTtyPath_name h' hlen' hout' hret'] at hname
    have hnumeral := congrArg ttyNumber (List.append_cancel_left hname)
    rw [ttyNumber_ttyNumeral, ttyNumber_ttyNumeral] at hnumeral
    exact ttyUnit_injective h h' hnumeral

/-- The 34th tty is `/dev/ttyv11`. -/
theorem getTtyPath_names_at_34 : ∃ out, getTtyPath 34 (List.replicate TTYPATHLEN 0xff) = some out
    ∧ out.path.length = TTYPATHLEN ∧ (out.ret = -1 ↔ (32 : Int) ^ 6 ≤ max (34 - 1) 0)
    ∧ (out.ret ≠ -1 → out.ret = 0
      ∧ TTYV_PREFIX ++ ttyNumeral (max ((34 : Int) - 1) 0).toNat ++ [0] <+: out.path) :=
  getTtyPath_names.1 34 (List.replicate TTYPATHLEN 0xff) (by decide) (by decide)

end DdeSeatd
