import Mathlib.Tactic

set_option autoImplicit false

/-! # Fixed buffers

A buffer is a list of cells whose length never changes. An access outside of it has no result
(`none`), so that a computation over a buffer that has a result never left it. The rules are about
buffers cut in pieces: an access at the length of the first piece meets the head of the second.
-/

namespace Buffer

variable {α : Type}

/-! ## Single cells -/

def load (buf : List α) (i : Nat) : Option α := buf[i]?

def store (buf : List α) (i : Nat) (a : α) : Option (List α) :=
  if i < buf.length then some (buf.set i a) else none

theorem load_append (xs ys : List α) (a : α) {i : Nat} (hi : i = xs.length) :
    load (xs ++ a :: ys) i = some a := by
  subst hi
  simp [load]

theorem store_append (xs ys : List α) (a b : α) {i : Nat} (hi : i = xs.length) :
    store (xs ++ a :: ys) i b = some (xs ++ b :: ys) := by
  subst hi
  simp [store]

/-! ## Strings -/

/-- Store a string from position `i` on. -/
def storeAll : List α → Nat → List α → Option (List α)
  | buf, _, [] => some buf
  | buf, i, a :: as => (store buf i a).bind fun buf => storeAll buf (i + 1) as

theorem storeAll_append (as : List α) : ∀ (xs old ys : List α) {i : Nat}, i = xs.length →
    old.length = as.length → storeAll (xs ++ (old ++ ys)) i as = some (xs ++ (as ++ ys)) := by
  induction as with
  | nil =>
      intro xs old ys i hi hlen
      rw [List.length_eq_zero_iff.mp hlen]
      rfl
  | cons a as ih =>
      intro xs old ys i hi hlen
      obtain ⟨o, old, rfl⟩ := List.exists_cons_of_length_eq_add_one hlen
      have hrest := ih (xs ++ [a]) old ys (i := i + 1) (by simp [hi]) (by simpa using hlen)
      simp only [List.append_assoc, List.singleton_append] at hrest
      simp only [storeAll, List.cons_append, store_append xs _ o a hi, Option.bind_some, hrest]

/-! ## Reversal in place -/

/-- Exchange two cells by way of a temporary. -/
def swap (buf : List α) (i j : Nat) : Option (List α) :=
  (load buf i).bind fun tmp => (load buf j).bind fun b =>
    (store buf i b).bind fun buf => store buf j tmp

theorem swap_append (xs ys zs : List α) (a b : α) {i j : Nat} (hi : i = xs.length)
    (hj : j = xs.length + ys.length + 1) :
    swap (xs ++ a :: (ys ++ b :: zs)) i j = some (xs ++ b :: (ys ++ a :: zs)) := by
  have hload : load (xs ++ a :: (ys ++ b :: zs)) j = some b := by
    have := load_append (xs ++ a :: ys) zs b (i := j) (by simp; omega)
    simpa using this
  have hstore : store (xs ++ b :: (ys ++ b :: zs)) j a = some (xs ++ b :: (ys ++ a :: zs)) := by
    have := store_append (xs ++ b :: ys) zs b a (i := j) (by simp; omega)
    simpa using this
  simp only [swap, load_append xs _ a hi, hload, store_append xs _ a b hi, hstore,
    Option.bind_some]

/-- The loop that reverses the cells from `base` to `stop`: `n` rounds are left, the next one
exchanges the cells at distance `i` from the ends. -/
def reverseLoop (base stop : Nat) : Nat → Nat → List α → Option (List α)
  | 0, _, buf => some buf
  | n + 1, i, buf =>
      (swap buf (base + i) (stop - 1 - i)).bind fun buf => reverseLoop base stop n (i + 1) buf

/-- A list of two or more, by its ends. -/
theorem exists_ends (seg : List α) (h : 2 ≤ seg.length) : ∃ a mid b, seg = a :: (mid ++ [b]) := by
  obtain ⟨a, rest, rfl⟩ := List.exists_cons_of_length_pos (by omega : 0 < seg.length)
  have hne : rest ≠ [] := by
    rintro rfl
    simp at h
  exact ⟨a, rest.dropLast, rest.getLast hne, by rw [List.dropLast_append_getLast]⟩

/-- **The loop reverses the piece between the parts it has dealt with.** -/
theorem reverseLoop_append (base stop : Nat) (n : Nat) :
    ∀ {i : Nat} (xs seg ys : List α), xs.length = base + i → xs.length + seg.length + i = stop →
      seg.length / 2 = n →
      reverseLoop base stop n i (xs ++ (seg ++ ys)) = some (xs ++ (seg.reverse ++ ys)) := by
  induction n with
  | zero =>
      intro i xs seg ys hxs hstop hn
      -- at most one cell is left in the middle
      have hseg : seg.reverse = seg := by
        cases seg with
        | nil => rfl
        | cons a rest =>
            cases rest with
            | nil => rfl
            | cons b rest => simp at hn
      rw [hseg, reverseLoop]
  | succ n ih =>
      intro i xs seg ys hxs hstop hn
      obtain ⟨a, mid, b, rfl⟩ := exists_ends seg (by omega)
      simp only [List.length_cons, List.length_append, List.length_nil] at hstop hn
      have hswap := swap_append xs mid ys a b (i := base + i) (j := stop - 1 - i) (by omega)
        (by omega)
      have hrest := ih (i := i + 1) (xs ++ [b]) mid (a :: ys) (by simp; omega) (by simp; omega)
        (by omega)
      simp only [List.append_assoc, List.singleton_append] at hrest
      simp only [reverseLoop, List.cons_append, List.append_assoc, List.nil_append, hswap,
        Option.bind_some, hrest, List.reverse_cons, List.reverse_append, List.reverse_nil]

end Buffer
