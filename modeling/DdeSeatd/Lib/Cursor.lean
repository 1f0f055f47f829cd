import Mathlib.Tactic

set_option autoImplicit false

/-! # Walking along a list that is edited

A loop goes along a list of elements that are told apart by a key, and holds the key of the
element it is at. It asks the list of the moment for the next element. `ahead` are the keys the
loop is still to come to: a new element at the front is not among them, and a change of an element
that keeps its key changes nothing.
-/

namespace Cursor

variable {α κ : Type} [DecidableEq κ] (key : α → κ)

/-- Where a loop begins. -/
def first (xs : List α) : Option κ := xs.head?.map key

/-- The element behind the one with key `k`. -/
def next : List α → κ → Option κ
  | [], _ => none
  | x :: xs, k => if key x = k then first key xs else next xs k

/-- The keys from `k` on. -/
def aheadOf : List α → κ → List κ
  | [], _ => []
  | x :: xs, k => if key x = k then (x :: xs).map key else aheadOf xs k

/-- The keys from the cursor on. -/
def ahead (xs : List α) : Option κ → List κ
  | none => []
  | some k => aheadOf key xs k

/-- The element with key `k`. -/
def find (xs : List α) (k : κ) : Option α := xs.find? (key · = k)

variable {key} {xs : List α} {k : κ}

theorem next_append {pre post : List α} {x : α} (h : key x ∉ pre.map key) :
    next key (pre ++ x :: post) (key x) = first key post := by
  induction pre with
  | nil => exact if_pos rfl
  | cons y pre ih =>
      rw [List.map_cons, List.mem_cons, not_or] at h
      exact (if_neg (Ne.symm h.1)).trans (ih h.2)

theorem aheadOf_append {pre post : List α} {x : α} (h : key x ∉ pre.map key) :
    aheadOf key (pre ++ x :: post) (key x) = key x :: post.map key := by
  induction pre with
  | nil => exact if_pos rfl
  | cons y pre ih =>
      rw [List.map_cons, List.mem_cons, not_or] at h
      exact (if_neg (Ne.symm h.1)).trans (ih h.2)

theorem ahead_first (xs : List α) : ahead key xs (first key xs) = xs.map key := by
  cases xs with
  | nil => rfl
  | cons x xs => exact if_pos rfl

/-- **From an element that is there, the loop sees it and then what comes next.** -/
theorem ahead_next (hnodup : (xs.map key).Nodup) (hk : k ∈ xs.map key) :
    ahead key xs (some k) = k :: ahead key xs (next key xs k) := by
  obtain ⟨x, hx, rfl⟩ := List.mem_map.mp hk
  obtain ⟨pre, post, rfl⟩ := List.append_of_mem hx
  rw [List.map_append, List.map_cons] at hnodup
  have hpre : key x ∉ pre.map key := fun hmem =>
    (List.nodup_append.mp hnodup).2.2 _ hmem _ List.mem_cons_self rfl
  rw [ahead, aheadOf_append hpre, next_append hpre]
  congr 1
  cases post with
  | nil => rfl
  | cons y post =>
      -- the next element is found behind `x`, since no key comes twice
      have hy : key y ∉ (pre ++ [x]).map key := by
        intro hmem
        rw [List.map_append, List.mem_append] at hmem
        rcases hmem with hmem | hmem
        · exact (List.nodup_append.mp hnodup).2.2 _ hmem _
            (List.mem_cons_of_mem _ List.mem_cons_self) rfl
        · rw [List.map_singleton, List.mem_singleton] at hmem
          have hcons := (List.nodup_append.mp hnodup).2.1
          rw [List.map_cons, hmem] at hcons
          exact (List.nodup_cons.mp hcons).1 List.mem_cons_self
      show (y :: post).map key = aheadOf key (pre ++ x :: y :: post) (key y)
      rw [show pre ++ x :: y :: post = (pre ++ [x]) ++ y :: post by simp, aheadOf_append hy]
      rfl

theorem ahead_nodup (hnodup : (xs.map key).Nodup) (c : Option κ) : (ahead key xs c).Nodup := by
  cases c with
  | none => exact .nil
  | some k =>
      show (aheadOf key xs k).Nodup
      induction xs with
      | nil => exact .nil
      | cons x xs ih =>
          unfold aheadOf
          split_ifs
          · exact hnodup
          · exact ih (List.nodup_cons.mp hnodup).2

omit [DecidableEq κ] in
theorem first_mem {j : κ} (hj : first key xs = some j) : j ∈ xs.map key := by
  obtain ⟨y, hy, rfl⟩ := Option.map_eq_some_iff.mp hj
  exact List.mem_map_of_mem (List.mem_of_head? hy)

/-- The next element is in the list. -/
theorem next_mem (hnodup : (xs.map key).Nodup) (hk : k ∈ xs.map key) {j : κ}
    (hj : next key xs k = some j) : j ∈ xs.map key := by
  induction xs with
  | nil => cases hk
  | cons x xs ih =>
      unfold next at hj
      split_ifs at hj with hx
      · exact List.mem_cons_of_mem _ (first_mem hj)
      · refine List.mem_cons_of_mem _ (ih (List.nodup_cons.mp hnodup).2 ?_ hj)
        exact (List.mem_cons.mp hk).resolve_left (Ne.symm hx)

/-- A new element at the front is not ahead of a loop that has begun. -/
theorem ahead_cons {x : α} {c : Option κ} (h : ∀ k ∈ c, key x ≠ k) :
    ahead key (x :: xs) c = ahead key xs c := by
  cases c with
  | none => rfl
  | some k => exact if_neg (h k rfl)

/-- Elements may change as long as they keep their keys. -/
theorem ahead_map {f : α → α} (hf : ∀ x, key (f x) = key x) (xs : List α) (c : Option κ) :
    ahead key (xs.map f) c = ahead key xs c := by
  cases c with
  | none => rfl
  | some k =>
      show aheadOf key (xs.map f) k = aheadOf key xs k
      induction xs with
      | nil => rfl
      | cons x xs ih =>
          have hkeys : ((x :: xs).map f).map key = (x :: xs).map key := by
            rw [List.map_map]
            exact List.map_congr_left fun y _ => hf y
          unfold aheadOf
          rw [List.map_cons] at hkeys ⊢
          simp only [hf, ih, hkeys]

theorem next_map {f : α → α} (hf : ∀ x, key (f x) = key x) (xs : List α) (k : κ) :
    next key (xs.map f) k = next key xs k := by
  induction xs with
  | nil => rfl
  | cons x xs ih =>
      have hfirst : first key (xs.map f) = first key xs := by
        cases xs with
        | nil => rfl
        | cons y ys => exact congrArg some (hf y)
      unfold next
      rw [List.map_cons]
      simp only [hf, ih, hfirst]

theorem find_mem {x : α} (h : find key xs k = some x) : x ∈ xs ∧ key x = k :=
  ⟨List.mem_of_find?_eq_some h, by simpa using List.find?_some h⟩

theorem find_eq {x : α} (hnodup : (xs.map key).Nodup) (hx : x ∈ xs) :
    find key xs (key x) = some x := by
  obtain ⟨y, hy⟩ : ∃ y, find key xs (key x) = some y :=
    Option.isSome_iff_exists.mp (List.find?_isSome.mpr ⟨x, hx, by simp⟩)
  obtain ⟨hmem, hkey⟩ := find_mem hy
  rw [hy, List.inj_on_of_nodup_map hnodup hmem hx hkey]

end Cursor
