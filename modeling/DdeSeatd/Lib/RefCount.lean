import Mathlib.Data.List.Nodup
import Mathlib.Tactic
import DdeSeatd.Lib.ListRel

set_option autoImplicit false

/-! # Tables of counted references

A table is a list of rows, each with a key and a count. Rows are created with a count of one;
acquiring a row that exists adds to its count, and releasing it takes one off, the last release
removing the row. `balance key ops` reads off a history of such operations how many references to
the row `key` are left since the row was last created, and `Counted` says that the table agrees
with the history.
-/

namespace RefCount

/-- An operation on the row of a key. -/
inductive Op (κ : Type) where
  | create (key : κ)
  | acquire (key : κ)
  | release (key : κ)
  deriving DecidableEq

def Op.key {κ : Type} : Op κ → κ
  | .create key | .acquire key | .release key => key

/-- The references left to the row of a key, after operations listed from the newest on: those
acquired less those released, from the creation of the row on. -/
def balance {κ : Type} [DecidableEq κ] (key : κ) : List (Op κ) → Int
  | [] => 0
  | .create key' :: ops => if key' = key then 1 else balance key ops
  | .acquire key' :: ops => if key' = key then balance key ops + 1 else balance key ops
  | .release key' :: ops => if key' = key then balance key ops - 1 else balance key ops

variable {κ α : Type} [DecidableEq κ] {key : α → κ} {count : α → Nat} {ops : List (Op κ)}
  {rows : List α} {i : Nat} {r : α}

/-- Operations on other rows do not matter. -/
theorem balance_cons_of_ne {k : κ} {op : Op κ} (h : op.key ≠ k) :
    balance k (op :: ops) = balance k ops := by
  cases op <;> exact if_neg h

/-- The rows of a table have different keys, and the counts the history gives them. -/
structure Counted (key : α → κ) (count : α → Nat) (ops : List (Op κ)) (rows : List α) : Prop where
  keys : (rows.map key).Nodup
  counts : ∀ r ∈ rows, 1 ≤ count r ∧ (count r : Int) = balance (key r) ops

/-- Rows of other tables do not matter. -/
theorem Counted.foreign (h : Counted key count ops rows) {op : Op κ}
    (hop : ∀ r ∈ rows, op.key ≠ key r) : Counted key count (op :: ops) rows := by
  refine ⟨h.keys, fun r hr => ?_⟩
  rw [balance_cons_of_ne (hop r hr)]
  exact h.counts r hr

/-- A new row. -/
theorem Counted.create (h : Counted key count ops rows) (hfresh : ∀ r' ∈ rows, key r' ≠ key r)
    (hone : count r = 1) : Counted key count (.create (key r) :: ops) (r :: rows) := by
  have hrest : Counted key count (.create (key r) :: ops) rows :=
    h.foreign fun r' hr' => (hfresh r' hr').symm
  refine ⟨List.nodup_cons.mpr ⟨?_, h.keys⟩, fun r' hr' => ?_⟩
  · intro hmem
    obtain ⟨r', hr', heq⟩ := List.mem_map.mp hmem
    exact hfresh r' hr' heq
  · rcases List.mem_cons.mp hr' with rfl | hr'
    · rw [hone]
      exact ⟨le_rfl, (if_pos rfl).symm⟩
    · exact hrest.counts r' hr'

/-- Rows of a table with the same key are the same. -/
theorem Counted.eq_of_key (h : Counted key count ops rows) (hr : rows[i]? = some r) {j : Nat}
    {r' : α} (hr' : rows[j]? = some r') (heq : key r' = key r) : j = i := by
  have hi : (rows.map key)[i]? = some (key r) := by rw [List.getElem?_map, hr]; rfl
  have hj : (rows.map key)[j]? = some (key r) := by rw [List.getElem?_map, hr', Option.map_some, heq]
  have hlt : j < (rows.map key).length := (List.getElem?_eq_some_iff.mp hj).1
  exact (List.getElem?_inj hlt h.keys).mp (hj.trans hi.symm)

/-- A change of the row at one position that keeps its key. -/
theorem Counted.modify (h : Counted key count ops rows) (hr : rows[i]? = some r) {f : α → α}
    (hkey : ∀ r, key (f r) = key r) {op : Op κ} (hop : op.key = key r)
    (hcount : 1 ≤ count (f r) ∧ (count (f r) : Int) = balance (key r) (op :: ops)) :
    Counted key count (op :: ops) (rows.modify i f) := by
  refine ⟨by rw [ListRel.map_modify hkey]; exact h.keys, fun r' hr' => ?_⟩
  obtain ⟨j, hj⟩ := List.getElem?_of_mem hr'
  by_cases hij : i = j
  · subst hij
    rw [List.getElem?_modify_eq, hr] at hj
    obtain rfl : f r = r' := Option.some.inj hj
    rw [hkey]
    exact hcount
  · rw [List.getElem?_modify_ne _ _ hij] at hj
    rw [balance_cons_of_ne fun heq => hij (h.eq_of_key hr hj (heq.symm.trans hop)).symm]
    exact h.counts r' (List.mem_of_getElem? hj)

/-- One more reference to a row. -/
theorem Counted.acquire (h : Counted key count ops rows) (hr : rows[i]? = some r) {f : α → α}
    (hkey : ∀ r, key (f r) = key r) (hf : ∀ r, count (f r) = count r + 1) :
    Counted key count (.acquire (key r) :: ops) (rows.modify i f) := by
  obtain ⟨hpos, hcount⟩ := h.counts r (List.mem_of_getElem? hr)
  refine h.modify hr hkey rfl ⟨by rw [hf]; omega, ?_⟩
  rw [hf, balance, if_pos rfl, ← hcount]
  push_cast
  rfl

/-- A reference less, but not the last. -/
theorem Counted.release (h : Counted key count ops rows) (hr : rows[i]? = some r) {f : α → α}
    (hkey : ∀ r, key (f r) = key r) (hf : ∀ r, count (f r) = count r - 1)
    (hmore : 0 < count r - 1) :
    Counted key count (.release (key r) :: ops) (rows.modify i f) := by
  obtain ⟨hpos, hcount⟩ := h.counts r (List.mem_of_getElem? hr)
  refine h.modify hr hkey rfl ⟨by rw [hf]; exact hmore, ?_⟩
  rw [hf, balance, if_pos rfl, ← hcount]
  omega

/-- The last reference: the row goes. -/
theorem Counted.remove (h : Counted key count ops rows) (hr : rows[i]? = some r) :
    Counted key count (.release (key r) :: ops) (rows.eraseIdx i) := by
  refine ⟨h.keys.sublist ((List.eraseIdx_sublist _ _).map key), fun r' hr' => ?_⟩
  obtain ⟨j, hij, hj⟩ := List.mem_eraseIdx_iff_getElem?.mp hr'
  rw [balance_cons_of_ne fun heq => hij (h.eq_of_key hr hj heq.symm)]
  exact h.counts r' (List.mem_of_getElem? hj)

end RefCount
