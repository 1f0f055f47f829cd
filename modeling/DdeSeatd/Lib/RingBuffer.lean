import Mathlib.Tactic
import Mathlib.Data.List.GetD

set_option autoImplicit false

/-! # Ring buffers addressed by free-running counters

A ring of `n` cells is addressed by two `w`-bit counters that are never reduced: `head`
counts the cells ever written, `tail` the cells ever consumed, both modulo `2 ^ w`. A counter
is turned into a cell index only when a cell is touched. The number of stored cells is
`head - tail` in `w`-bit arithmetic, so a full ring and an empty ring differ although both
counters select the same cell. Everything below needs two facts about the sizes only:
`n ∣ 2 ^ w` (the cell a counter selects survives the counter's wrap) and `n < 2 ^ w`.

* `window data pos len` reads `len` cells from position `pos` on, around the end;
* `store data pos xs` writes `xs` from position `pos` on, around the end;
* `blit data off xs` is the linear write, the only one a block copy can do. `store_eq_blit`
  and `store_eq_blit_blit` cut a `store` into one or two of them.
-/

namespace RingBuffer

/-! ## Windows and stores -/

section Cells

variable {α : Type} {n : Nat} {t len : Nat}

/-- Write `xs` from position `pos` on, around the end of the array. -/
def store (data : Fin n → α) (pos : Nat) (xs : List α) : Fin n → α :=
  fun i => xs.getD ((i.val + (n - pos % n)) % n) (data i)

/-- Write `xs` linearly from index `off` on. -/
def blit (data : Fin n → α) (off : Nat) (xs : List α) : Fin n → α :=
  fun i => if off ≤ i.val then xs.getD (i.val - off) (data i) else data i

/-- **A store that does not reach the end of the array is one linear write.** -/
theorem store_eq_blit (data : Fin n → α) {off : Nat} (xs : List α) (hoff : off < n)
    (hlen : off + xs.length ≤ n) : store data off xs = blit data off xs := by
  funext i
  have hi : i.val < n := i.isLt
  unfold store blit
  rw [Nat.mod_eq_of_lt hoff]
  by_cases h : off ≤ i.val
  · rw [if_pos h, show i.val + (n - off) = i.val - off + n by omega, Nat.add_mod_right,
      Nat.mod_eq_of_lt (by omega)]
  · rw [if_neg h, Nat.mod_eq_of_lt (by omega), List.getD_eq_default _ _ (by omega)]

/-- **A store that passes the end of the array is two linear writes.** -/
theorem store_eq_blit_blit (data : Fin n → α) {off : Nat} (xs : List α) (hoff : off < n)
    (hlen : xs.length ≤ n) :
    store data off xs = blit (blit data off (xs.take (n - off))) 0 (xs.drop (n - off)) := by
  funext i
  have hi : i.val < n := i.isLt
  unfold store blit
  rw [Nat.mod_eq_of_lt hoff, if_pos (Nat.zero_le _), Nat.sub_zero]
  by_cases h : off ≤ i.val
  · rw [if_pos h, show i.val + (n - off) = i.val - off + n by omega, Nat.add_mod_right,
      Nat.mod_eq_of_lt (by omega), List.getD_eq_default (xs.drop (n - off)) _ (by simp; omega),
      List.getD_eq_getElem?_getD, List.getD_eq_getElem?_getD, List.getElem?_take]
    rw [if_pos (by omega)]
  · rw [if_neg h, Nat.mod_eq_of_lt (by omega), List.getD_eq_getElem?_getD,
      List.getD_eq_getElem?_getD, List.getElem?_drop, Nat.add_comm]

theorem mod_of_wrap {a : Nat} (h : n ≤ a) (h' : a < 2 * n) : a % n = a - n := by
  rw [Nat.mod_eq_sub_mod h, Nat.mod_eq_of_lt (by omega)]

/-- The indices of a run of cells that stays inside the array. -/
theorem cells_inside (h : t + len ≤ n) :
    (List.range len).map (fun i => (t + i) % n) = (List.range len).map (t + ·) := by
  apply List.map_congr_left
  intro i hi
  have := List.mem_range.mp hi
  exact Nat.mod_eq_of_lt (by omega)

/-- The indices of a run of cells that passes the end of the array. -/
theorem cells_around (ht : t < n) (hlen : len ≤ n) (h : n ≤ t + len) :
    (List.range len).map (fun i => (t + i) % n)
      = (List.range (n - t)).map (t + ·) ++ (List.range (t + len - n)).map (0 + ·) := by
  have hsplit : len = (n - t) + (t + len - n) := by omega
  conv_lhs => rw [hsplit, List.range_add, List.map_append, List.map_map]
  congr 1
  · exact cells_inside (by omega)
  · apply List.map_congr_left
    intro i hi
    have := List.mem_range.mp hi
    show (t + (n - t + i)) % n = 0 + i
    rw [mod_of_wrap (by omega) (by omega)]
    omega

variable [NeZero n]

/-- The `len` cells from position `pos` on, around the end of the array. -/
def window (data : Fin n → α) (pos len : Nat) : List α :=
  (List.range len).map fun j => data (Fin.ofNat n (pos + j))

@[simp] theorem window_length (data : Fin n → α) (pos len : Nat) :
    (window data pos len).length = len := by
  simp [window]

@[simp] theorem window_zero (data : Fin n → α) (pos : Nat) : window data pos 0 = [] := rfl

theorem ofNat_congr {a b : Nat} (h : a % n = b % n) : Fin.ofNat n a = Fin.ofNat n b :=
  Fin.ext h

/-- A window depends on its position only up to the array length. -/
theorem window_congr (data : Fin n → α) {p q : Nat} (h : p % n = q % n) (len : Nat) :
    window data p len = window data q len := by
  apply List.map_congr_left
  intro j _
  rw [ofNat_congr (a := p + j) (b := q + j) (by rw [Nat.add_mod, h, ← Nat.add_mod])]

theorem window_append (data : Fin n → α) (pos a b : Nat) :
    window data pos (a + b) = window data pos a ++ window data (pos + a) b := by
  unfold window
  rw [List.range_add, List.map_append, List.map_map]
  congr 1
  apply List.map_congr_left
  intro j _
  simp only [Function.comp, Nat.add_assoc]

theorem window_take (data : Fin n → α) (pos : Nat) {a len : Nat} (h : a ≤ len) :
    (window data pos len).take a = window data pos a := by
  obtain ⟨b, rfl⟩ := Nat.exists_eq_add_of_le h
  rw [window_append, List.take_append_of_le_length (by simp), List.take_of_length_le (by simp)]

theorem window_drop (data : Fin n → α) (pos : Nat) {a len : Nat} (h : a ≤ len) :
    (window data pos len).drop a = window data (pos + a) (len - a) := by
  obtain ⟨b, rfl⟩ := Nat.exists_eq_add_of_le h
  rw [window_append, List.drop_append_of_le_length (by simp), List.drop_of_length_le (by simp),
    List.nil_append, Nat.add_sub_cancel_left]

/-- A window that passes the end of the array is two linear blocks. -/
theorem window_around (data : Fin n → α) (ht : t < n) (h : n ≤ t + len) :
    window data t len = window data t (n - t) ++ window data 0 (t + len - n) := by
  have hsplit : len = (n - t) + (t + len - n) := by omega
  have hzero : (t + (n - t)) % n = 0 % n := by
    rw [show t + (n - t) = n by omega, Nat.mod_self, Nat.zero_mod]
  conv_lhs => rw [hsplit, window_append, window_congr data hzero]

/-- The distance from `pos` to the cell `pos + j` is `j`. -/
theorem offset_of_pos (pos : Nat) {j : Nat} (hj : j < n) :
    ((pos + j) % n + (n - pos % n)) % n = j := by
  have hlt : pos % n < n := Nat.mod_lt _ (NeZero.pos n)
  have hdiv : n * (pos / n) + pos % n = pos := Nat.div_add_mod pos n
  have hsum : pos + j + (n - pos % n) = j + n * (pos / n + 1) := by
    rw [Nat.mul_succ]; omega
  rw [Nat.mod_add_mod, hsum, Nat.add_mul_mod_self_left, Nat.mod_eq_of_lt hj]

theorem store_at (data : Fin n → α) (pos : Nat) (xs : List α) {j : Nat} (hj : j < n) :
    store data pos xs (Fin.ofNat n (pos + j))
      = xs.getD j (data (Fin.ofNat n (pos + j))) := by
  show xs.getD (((pos + j) % n + (n - pos % n)) % n) _ = _
  rw [offset_of_pos pos hj]

/-- What was stored is read back. -/
theorem window_store (data : Fin n → α) (pos : Nat) (xs : List α) (hlen : xs.length ≤ n) :
    window (store data pos xs) pos xs.length = xs := by
  apply List.ext_getElem (by simp)
  intro j h₁ h₂
  simp only [window, List.getElem_map, List.getElem_range]
  rw [store_at data pos xs (by omega), List.getD_eq_getElem _ _ h₂]

/-- A store leaves alone the window that ends where the store begins. -/
theorem window_store_before (data : Fin n → α) (pos k : Nat) (xs : List α)
    (hlen : k + xs.length ≤ n) :
    window (store data (pos + k) xs) pos k = window data pos k := by
  apply List.map_congr_left
  intro j hj
  have hjk : j < k := List.mem_range.mp hj
  -- seen from the store's position the cell lies `n - k + j` cells ahead
  have hcell : Fin.ofNat n (pos + j) = Fin.ofNat n (pos + k + (n - k + j)) := by
    apply ofNat_congr
    rw [show pos + k + (n - k + j) = pos + j + n by omega, Nat.add_mod_right]
  rw [hcell, store_at data (pos + k) xs (by omega), List.getD_eq_default _ _ (by omega)]

end Cells

end RingBuffer

/-! ## The ring -/

/-- A ring of `n` cells with two free-running `w`-bit counters. -/
structure RingBuffer (α : Type) (w n : Nat) where
  head : BitVec w
  tail : BitVec w
  data : Fin n → α

namespace RingBuffer

section Counters

variable {α : Type} {w n : Nat}

/-- The number of stored cells. -/
def size (r : RingBuffer α w n) : Nat := (r.head - r.tail).toNat

/-- Append `xs` behind the stored cells. -/
def push (r : RingBuffer α w n) (xs : List α) : RingBuffer α w n :=
  { r with data := store r.data r.head.toNat xs, head := r.head + BitVec.ofNat w xs.length }

theorem push_nil (r : RingBuffer α w n) : r.push [] = r := by
  show ({ r with head := r.head + 0#w } : RingBuffer α w n) = r
  rw [BitVec.add_zero]

/-- Consume the `m` oldest cells. -/
def skip (r : RingBuffer α w n) (m : Nat) : RingBuffer α w n :=
  { r with tail := r.tail + BitVec.ofNat w m }

/-- Give back the `m` cells consumed last. -/
def unskip (r : RingBuffer α w n) (m : Nat) : RingBuffer α w n :=
  { r with tail := r.tail - BitVec.ofNat w m }

theorem head_eq (r : RingBuffer α w n) : r.head = r.tail + BitVec.ofNat w r.size := by
  unfold size
  rw [BitVec.ofNat_toNat, BitVec.setWidth_eq, BitVec.add_comm, BitVec.sub_add_cancel]

/-- The head selects the cell `size` places behind the tail's. -/
theorem head_mod (hn : n ∣ 2 ^ w) (r : RingBuffer α w n) :
    r.head.toNat % n = (r.tail.toNat + r.size) % n := by
  have h : r.head.toNat = (r.tail.toNat + r.size) % 2 ^ w := by
    conv_lhs => rw [head_eq r]
    rw [BitVec.toNat_add, BitVec.toNat_ofNat, Nat.add_mod_mod]
  rw [h, Nat.mod_mod_of_dvd _ hn]

theorem unskip_skip (r : RingBuffer α w n) (m : Nat) : (r.skip m).unskip m = r := by
  show { r with tail := r.tail + BitVec.ofNat w m - BitVec.ofNat w m } = r
  rw [BitVec.add_sub_cancel]

theorem skip_skip (r : RingBuffer α w n) (m m' : Nat) : (r.skip m).skip m' = r.skip (m + m') := by
  show { r with tail := r.tail + BitVec.ofNat w m + BitVec.ofNat w m' } = r.skip (m + m')
  rw [BitVec.add_assoc, ← BitVec.ofNat_add]
  rfl

theorem size_skip (r : RingBuffer α w n) {m : Nat} (hm : m ≤ r.size) :
    (r.skip m).size = r.size - m := by
  have hlt : r.size < 2 ^ w := (r.head - r.tail).isLt
  have hsub : (r.skip m).size = (BitVec.ofNat w r.size - BitVec.ofNat w m).toNat := by
    have hhead := head_eq r
    show (r.head - (r.tail + BitVec.ofNat w m)).toNat = _
    rw [hhead]
    congr 1
    rw [← BitVec.sub_sub, BitVec.add_comm r.tail, BitVec.add_sub_cancel]
  rw [hsub, BitVec.toNat_sub_of_le]
  · simp only [BitVec.toNat_ofNat]
    rw [Nat.mod_eq_of_lt hlt, Nat.mod_eq_of_lt (by omega)]
  · simp only [BitVec.le_def, BitVec.toNat_ofNat]
    rw [Nat.mod_eq_of_lt hlt, Nat.mod_eq_of_lt (by omega)]
    exact hm

theorem size_push (hlt : n < 2 ^ w) (r : RingBuffer α w n) {xs : List α}
    (hfit : r.size + xs.length ≤ n) : (r.push xs).size = r.size + xs.length := by
  have hsub : (r.push xs).size
      = (BitVec.ofNat w r.size + BitVec.ofNat w xs.length).toNat := by
    have hhead := head_eq r
    show (r.head + BitVec.ofNat w xs.length - r.tail).toNat = _
    rw [hhead]
    congr 1
    rw [BitVec.add_assoc, BitVec.add_comm r.tail, BitVec.add_sub_cancel]
  rw [hsub, BitVec.toNat_add, BitVec.toNat_ofNat, BitVec.toNat_ofNat, ← Nat.add_mod,
    Nat.mod_eq_of_lt (by omega)]

variable [NeZero n]

/-- The stored cells, oldest first. -/
def toList (r : RingBuffer α w n) : List α := window r.data r.tail.toNat r.size

@[simp] theorem toList_length (r : RingBuffer α w n) : r.toList.length = r.size := by
  simp [toList]

/-- **Consuming drops the oldest cells.** -/
theorem toList_skip (hn : n ∣ 2 ^ w) (r : RingBuffer α w n) {m : Nat} (hm : m ≤ r.size) :
    (r.skip m).toList = r.toList.drop m := by
  have hlt : r.size < 2 ^ w := (r.head - r.tail).isLt
  have hpos : (r.skip m).tail.toNat % n = (r.tail.toNat + m) % n := by
    show (r.tail + BitVec.ofNat w m).toNat % n = _
    rw [BitVec.toNat_add, BitVec.toNat_ofNat, Nat.add_mod_mod, Nat.mod_mod_of_dvd _ hn]
  unfold toList
  rw [window_drop _ _ hm, size_skip r hm, window_congr _ hpos]
  rfl

omit [NeZero n] in
/-- The head is where the stored cells end. -/
theorem store_head (hn : n ∣ 2 ^ w) (r : RingBuffer α w n) (xs : List α) :
    store r.data r.head.toNat xs = store r.data (r.tail.toNat + r.size) xs := by
  funext i
  unfold store
  rw [head_mod hn r]

/-- Cells written behind the head are not stored until the head moves. -/
theorem toList_store (hn : n ∣ 2 ^ w) (r : RingBuffer α w n) {xs : List α}
    (hfit : r.size + xs.length ≤ n) :
    ({ r with data := store r.data r.head.toNat xs } : RingBuffer α w n).toList = r.toList := by
  show window (store r.data r.head.toNat xs) r.tail.toNat r.size = _
  rw [store_head hn, window_store_before _ _ _ _ hfit]
  rfl

/-- **Pushing appends**, as long as the ring has the room. -/
theorem toList_push (hn : n ∣ 2 ^ w) (hlt : n < 2 ^ w) (r : RingBuffer α w n) {xs : List α}
    (hfit : r.size + xs.length ≤ n) : (r.push xs).toList = r.toList ++ xs := by
  show window (store r.data r.head.toNat xs) r.tail.toNat (r.push xs).size = _
  rw [size_push hlt r hfit, store_head hn]
  rw [window_append, window_store_before _ _ _ _ hfit, window_store _ _ _ (by omega)]
  rfl

end Counters

end RingBuffer
