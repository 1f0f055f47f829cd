import Mathlib.Data.List.Cycle
import Mathlib.Tactic

set_option autoImplicit false

/-! # Rings of nodes in a heap

A heap gives every node a `next` and a `prev` pointer, either of which may be NULL. A ring is a
list of distinct nodes in which each one's `next` is the node after it, the last one's the first,
and every `prev` points back (`IsRing`). It is a property of Mathlib's cycle of the nodes, so a ring
may be read from any of its nodes on (`IsRing.rotate`), and pointer surgery at a node can be done
with that node first.

What surgery preserves follows from one rule: a chain keeps its links if the heap keeps `next` on
its nodes but the last and `prev` on its nodes but the first (`isChain_linked_congr`).
-/

namespace CircularList

/-! ## Heaps -/

structure Heap (ν : Type) where
  next : ν → Option ν
  prev : ν → Option ν

namespace Heap

variable {ν : Type} [DecidableEq ν]

def setNext (h : Heap ν) (n : ν) (p : Option ν) : Heap ν :=
  { h with next := Function.update h.next n p }

def setPrev (h : Heap ν) (n : ν) (p : Option ν) : Heap ν :=
  { h with prev := Function.update h.prev n p }

@[simp] theorem next_setNext (h : Heap ν) (n m : ν) (p : Option ν) :
    (h.setNext n p).next m = if m = n then p else h.next m := Function.update_apply _ _ _ _

@[simp] theorem prev_setNext (h : Heap ν) (n : ν) (p : Option ν) :
    (h.setNext n p).prev = h.prev := rfl

@[simp] theorem next_setPrev (h : Heap ν) (n : ν) (p : Option ν) :
    (h.setPrev n p).next = h.next := rfl

@[simp] theorem prev_setPrev (h : Heap ν) (n m : ν) (p : Option ν) :
    (h.setPrev n p).prev m = if m = n then p else h.prev m := Function.update_apply _ _ _ _

end Heap

/-! ## Links and chains -/

variable {ν : Type}

/-- `b` comes right after `a`. -/
def Linked (h : Heap ν) (a b : ν) : Prop := h.next a = some b ∧ h.prev b = some a

/-- A relation between neighbours, by what holds of the nodes that have a neighbour. -/
theorem isChain_imp_inner {R S : ν → ν → Prop} {l : List ν}
    (himp : ∀ a ∈ l.dropLast, ∀ b ∈ l.tail, R a b → S a b) (h : l.IsChain R) : l.IsChain S := by
  induction l with
  | nil => exact List.isChain_nil
  | cons x l ih =>
      cases l with
      | nil => exact List.isChain_singleton x
      | cons y l =>
          rw [List.isChain_cons_cons] at h ⊢
          refine ⟨himp x (by simp) y (by simp) h.1, ih (fun a ha b hb => ?_) h.2⟩
          exact himp a (by simp [ha]) b (List.mem_cons_of_mem y hb)

/-- Links stay where the pointers they are made of do. -/
theorem isChain_linked_congr {h h' : Heap ν} {l : List ν} (hl : l.IsChain (Linked h))
    (hnext : ∀ a ∈ l.dropLast, h'.next a = h.next a) (hprev : ∀ b ∈ l.tail, h'.prev b = h.prev b) :
    l.IsChain (Linked h') :=
  isChain_imp_inner (fun a ha b hb hab => ⟨(hnext a ha).trans hab.1, (hprev b hb).trans hab.2⟩) hl

/-! ## Rings -/

/-- The nodes form a ring, in this order. -/
structure IsRing (h : Heap ν) (l : List ν) : Prop where
  ne_nil : l ≠ []
  nodup : l.Nodup
  chain : (l : Cycle ν).Chain (Linked h)

theorem isRing_cons_iff {h : Heap ν} {a : ν} {l : List ν} :
    IsRing h (a :: l) ↔ (a :: l).Nodup ∧ (a :: (l ++ [a])).IsChain (Linked h) :=
  ⟨fun hr => ⟨hr.nodup, Cycle.chain_coe_cons _ _ _ |>.mp hr.chain⟩,
    fun hr => ⟨List.cons_ne_nil a l, hr.1, Cycle.chain_coe_cons _ _ _ |>.mpr hr.2⟩⟩

/-- A ring may be read from any of its nodes on. -/
theorem IsRing.rotate {h : Heap ν} {xs ys : List ν} (hr : IsRing h (xs ++ ys)) : IsRing h (ys ++ xs) := by
  have hcycle : ((xs ++ ys : List ν) : Cycle ν) = ((ys ++ xs : List ν) : Cycle ν) :=
    Cycle.coe_eq_coe.mpr List.isRotated_append
  refine ⟨fun hnil => hr.ne_nil ?_, List.nodup_append_comm.mp hr.nodup, hcycle ▸ hr.chain⟩
  simp only [List.append_eq_nil_iff] at hnil ⊢
  exact hnil.symm

/-- A ring is untouched by what happens to other nodes. -/
theorem IsRing.congr {h h' : Heap ν} {l : List ν} (hr : IsRing h l)
    (hsame : ∀ n ∈ l, h'.next n = h.next n ∧ h'.prev n = h.prev n) : IsRing h' l := by
  cases l with
  | nil => exact absurd rfl hr.ne_nil
  | cons a l =>
      rw [isRing_cons_iff] at hr ⊢
      refine ⟨hr.1, isChain_linked_congr hr.2 (fun n hn => (hsame n ?_).1)
        fun n hn => (hsame n ?_).2⟩
      · rw [← List.cons_append, List.dropLast_concat] at hn
        exact hn
      · simp only [List.tail_cons, List.mem_append, List.mem_singleton] at hn
        exact List.mem_cons.mpr hn.symm

/-- Nodes outside `nodes` keep their pointers, and rings outside of it stay as they are. -/
structure LeavesAlone (h h' : Heap ν) (nodes : List ν) : Prop where
  pointers : ∀ n ∉ nodes, h'.next n = h.next n ∧ h'.prev n = h.prev n
  rings : ∀ l, IsRing h l → l.Disjoint nodes → IsRing h' l

theorem leavesAlone_of_pointers {h h' : Heap ν} {nodes : List ν}
    (hsame : ∀ n ∉ nodes, h'.next n = h.next n ∧ h'.prev n = h.prev n) : LeavesAlone h h' nodes :=
  ⟨hsame, fun _ hl hdisj => hl.congr fun n hn => hsame n fun hmem => hdisj hn hmem⟩

/-! ## Neighbours -/

/-- The ring goes on behind any of its nodes: with the next one, or with that node itself. -/
theorem exists_next (rest : List ν) (p : ν) : ∃ q t, rest ++ [p] = q :: t :=
  List.exists_cons_of_length_pos (by simp)

/-- Behind the first node comes the second, or the first again. -/
theorem IsRing.linked_next {h : Heap ν} {p q : ν} {rest t : List ν} (hr : IsRing h (p :: rest))
    (hq : rest ++ [p] = q :: t) : Linked h p q := by
  have hchain := (isRing_cons_iff.mp hr).2
  rw [hq] at hchain
  exact (List.isChain_cons_cons.mp hchain).1

/-- Before the first node comes the last. -/
theorem IsRing.linked_prev {h : Heap ν} {p z : ν} {rest init : List ν} (hr : IsRing h (p :: rest))
    (hz : p :: rest = init ++ [z]) : Linked h z p := by
  rw [hz] at hr
  exact hr.rotate.linked_next hz.symm

/-- The nodes behind the first one are a chain. -/
theorem IsRing.inner {h : Heap ν} {p : ν} {rest : List ν} (hr : IsRing h (p :: rest)) :
    rest.IsChain (Linked h) :=
  (List.isChain_append.mp (isRing_cons_iff.mp hr).2.tail).1

/-- No pointer of a ring is NULL. -/
theorem IsRing.ne_none {h : Heap ν} {l : List ν} (hr : IsRing h l) {n : ν} (hn : n ∈ l) :
    h.prev n ≠ none ∧ h.next n ≠ none := by
  obtain ⟨xs, ys, rfl⟩ := List.append_of_mem hn
  have hfirst : IsRing h (n :: (ys ++ xs)) := hr.rotate
  obtain ⟨q, t, hq⟩ := exists_next (ys ++ xs) n
  have hnext := hfirst.linked_next hq
  have hprev := hfirst.linked_prev (List.dropLast_append_getLast (List.cons_ne_nil n _)).symm
  rw [hprev.2, hnext.1]
  exact ⟨Option.some_ne_none _, Option.some_ne_none _⟩

end CircularList
