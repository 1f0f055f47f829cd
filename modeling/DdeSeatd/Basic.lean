import Mathlib.Tactic

set_option autoImplicit false

/-! # Error numbers, C integers and C strings

The system-level vocabulary shared by the daemon and the library: the `errno` values the
code sets or tests (Linux numbering), the byte layout of the `uint16_t` and `int` fields of
the wire structures (little endian, two's complement), and C strings as byte lists without
their terminating NUL.
-/

namespace DdeSeatd

/-! ## `errno` -/

def EPERM : Nat := 1
def ENOENT : Nat := 2
def ESRCH : Nat := 3
def EINTR : Nat := 4
def EIO : Nat := 5
def EBADF : Nat := 9
def EAGAIN : Nat := 11
def ENOMEM : Nat := 12
def EACCES : Nat := 13
def EBUSY : Nat := 16
def EINVAL : Nat := 22
def EMFILE : Nat := 24
def EPIPE : Nat := 32
def ENOSYS : Nat := 38
def EPROTO : Nat := 71
def EBADMSG : Nat := 74
def EOVERFLOW : Nat := 75
def ENOTCONN : Nat := 107
def EALREADY : Nat := 114

/-! ## Integers on the wire -/

/-- The two bytes of a `uint16_t`. -/
def uint16Bytes (v : Nat) : List UInt8 := [UInt8.ofNat (v % 256), UInt8.ofNat (v / 256 % 256)]

/-- The four bytes of an `int`, in two's complement. -/
def intBytes (i : Int) : List UInt8 :=
  let v := (i % 2 ^ 32).toNat
  [UInt8.ofNat (v % 256), UInt8.ofNat (v / 256 % 256), UInt8.ofNat (v / 256 ^ 2 % 256),
    UInt8.ofNat (v / 256 ^ 3 % 256)]

/-- The `uint16_t` stored in the first two bytes. -/
def bytesUint16 (bs : List UInt8) : Nat := (bs.getD 0 0).toNat + 256 * (bs.getD 1 0).toNat

/-- The `int` stored in the first four bytes. -/
def bytesInt (bs : List UInt8) : Int :=
  let v : Nat := (bs.getD 0 0).toNat + 256 * (bs.getD 1 0).toNat + 256 ^ 2 * (bs.getD 2 0).toNat
    + 256 ^ 3 * (bs.getD 3 0).toNat
  if v < 2 ^ 31 then (v : Int) else (v : Int) - 2 ^ 32

@[simp] theorem uint16Bytes_length (v : Nat) : (uint16Bytes v).length = 2 := rfl

theorem bytesUint16_uint16Bytes {v : Nat} (h : v < 2 ^ 16) : bytesUint16 (uint16Bytes v) = v := by
  simp only [bytesUint16, uint16Bytes, List.getD_cons_zero, List.getD_cons_succ,
    UInt8.toNat_ofNat']
  omega

@[simp] theorem intBytes_length (i : Int) : (intBytes i).length = 4 := rfl

/-- What an `int` holds of an integer. -/
theorem bytesInt_intBytes (i : Int) : bytesInt (intBytes i) = i.bmod (2 ^ 32) := by
  have hlt : (i % 2 ^ 32).toNat < 2 ^ 32 := by omega
  have hval : ((i % 2 ^ 32).toNat : Int) = i % 2 ^ 32 := by omega
  simp only [bytesInt, intBytes, List.getD_cons_zero, List.getD_cons_succ, UInt8.toNat_ofNat']
  rw [Int.bmod_def]
  generalize (i % 2 ^ 32).toNat = v at hlt hval
  split_ifs <;> omega

/-! ## C strings -/

/-- A C string: its bytes up to the terminating NUL, which is left out. -/
abbrev CString := List UInt8

/-- The C string of a sequence of ASCII characters. -/
def ascii (cs : List Char) : CString := cs.map fun c => UInt8.ofNat c.toNat

end DdeSeatd
