import DdeSeatd.Lib.CircularList

set_option autoImplicit false

/-! # Intrusive lists (`common/linked_list.c`)

The lists of the daemon and of the library: a list is a ring of nodes, one of which is its head.
The functions are modelled write by write over a heap of pointers; a failed assertion and an
access through NULL have no result. A list with head `hd` and elements `xs` is the ring
`hd :: xs`, and each function is shown to do to that sequence what its name says, whatever
coincides in a short list, and to leave every other node alone.

The other modules use sequences in the place of these lists.
-/

namespace DdeSeatd

open CircularList

variable {ν : Type} [DecidableEq ν]

/-! ## The functions -/

def linkedListInit (h : Heap ν) (list : ν) : Heap ν :=
  (h.setNext list (some list)).setPrev list (some list)

def linkedListInsert (h : Heap ν) (list elem : ν) : Option (Heap ν) := do
  guard (h.prev list ≠ none ∧ h.next list ≠ none)
  guard (h.prev elem = h.next elem)
  let h := h.setPrev elem (some list)
  let h := h.setNext elem (h.next list)
  let h := h.setNext list (some elem)
  let next ← h.next elem
  pure (h.setPrev next (some elem))

def linkedListRemove (h : Heap ν) (elem : ν) : Option (Heap ν) := do
  guard (h.prev elem ≠ none ∧ h.next elem ≠ none)
  let prev ← h.prev elem
  let h := h.setNext prev (h.next elem)
  let next ← h.next elem
  let h := h.setPrev next (h.prev elem)
  let h := h.setNext elem none
  pure (h.setPrev elem none)

def linkedListEmpty (h : Heap ν) (list : ν) : Option Bool := do
  guard (h.prev list ≠ none ∧ h.next list ≠ none)
  pure (h.next list = some list)

def linkedListTake (h : Heap ν) (target source : ν) : Option (Heap ν) := do
  if ← linkedListEmpty h source then
    pure h
  else
    let first ← h.next source
    let h := h.setPrev first (some target)
    let last ← h.prev source
    let h := h.setNext last (h.next target)
    let old ← h.next target
    let h := h.setPrev old (h.prev source)
    let h := h.setNext target (h.next source)
    pure (linkedListInit h source)

/-! ## Insertion -/

/-- Insertion behind the first node of a ring. -/
theorem linkedListInsert_first {h : Heap ν} {p e : ν} {rest : List ν} (hr : IsRing h (p :: rest))
    (he : e ∉ p :: rest) (hun : h.prev e = h.next e) :
    ∃ h', linkedListInsert h p e = some h' ∧ IsRing h' (p :: e :: rest)
      ∧ ∀ n ∉ e :: p :: rest, h'.next n = h.next n ∧ h'.prev n = h.prev n := by
  obtain ⟨q, t, hq⟩ := exists_next rest p
  obtain ⟨hnodup, hchain⟩ := isRing_cons_iff.mp hr
  have hmem : ∀ n, n ∈ q :: t ↔ n ∈ p :: rest := fun n => by
    rw [← hq, List.mem_append, List.mem_singleton, List.mem_cons, or_comm]
  have hqt : q ∉ t := (List.nodup_cons.mp (hq ▸ List.nodup_append_comm.mp hnodup)).1
  have hpe : p ≠ e := fun h => he (h ▸ List.mem_cons_self)
  have hqe : q ≠ e := fun h => he ((hmem e).mp (h ▸ List.mem_cons_self))
  have hlinked := hr.linked_next hq
  refine ⟨(((h.setPrev e (some p)).setNext e (some q)).setNext p (some e)).setPrev q (some e),
    ?_, ?_, ?_⟩
  · simp [linkedListInsert, hr.ne_none List.mem_cons_self, hun, hlinked.1, hpe.symm]
  · refine isRing_cons_iff.mpr ⟨?_, ?_⟩
    · simp only [List.mem_cons, not_or] at he
      simp only [List.nodup_cons, List.mem_cons, not_or] at hnodup ⊢
      exact ⟨⟨hpe, hnodup.1⟩, he.2, hnodup.2⟩
    · rw [List.cons_append, hq, List.isChain_cons_cons, List.isChain_cons_cons]
      refine ⟨⟨by simp, by simp [hqe.symm]⟩, ⟨by simp [hpe.symm], by simp⟩, ?_⟩
      -- behind `e` the nodes are the old ones: only `p` has a new `next` and only `q` a new `prev`
      rw [hq] at hchain
      refine isChain_linked_congr (List.isChain_cons_cons.mp hchain).2 (fun a ha => ?_)
        fun b hb => ?_
      · rw [← hq, List.dropLast_concat] at ha
        have hap : a ≠ p := fun h => (List.nodup_cons.mp hnodup).1 (h ▸ ha)
        have hae : a ≠ e := fun h => he (h ▸ List.mem_cons_of_mem p ha)
        simp [hap, hae]
      · have hbq : b ≠ q := fun h => hqt (h ▸ hb)
        have hbe : b ≠ e := fun h => he ((hmem e).mp (h ▸ List.mem_cons_of_mem q hb))
        simp [hbq, hbe]
  · intro n hn
    simp only [List.mem_cons, not_or] at hn
    have hnq : n ≠ q := fun h => by
      have := (hmem n).mp (h ▸ List.mem_cons_self)
      simp only [List.mem_cons] at this
      exact this.elim hn.2.1 hn.2.2
    simp [hn.1, hn.2.1, hnq]

/-- **Insertion**: `elem` comes right after the node, anywhere in the list. -/
theorem linkedListInsert_spec {h : Heap ν} {ys zs : List ν} {p e : ν}
    (hr : IsRing h (ys ++ p :: zs)) (he : e ∉ ys ++ p :: zs) (hun : h.prev e = h.next e) :
    ∃ h', linkedListInsert h p e = some h' ∧ IsRing h' (ys ++ p :: e :: zs)
      ∧ LeavesAlone h h' (e :: (ys ++ p :: zs)) := by
  have hperm : ∀ n, n ∈ p :: (zs ++ ys) ↔ n ∈ ys ++ p :: zs := fun n => by
    simp only [List.mem_cons, List.mem_append]
    tauto
  have hfirst : IsRing h (p :: (zs ++ ys)) := hr.rotate
  obtain ⟨h', heq, hring, hsame⟩ := linkedListInsert_first hfirst
    (fun hmem => he ((hperm e).mp hmem)) hun
  refine ⟨h', heq, IsRing.rotate hring, leavesAlone_of_pointers fun n hn => hsame n fun hmem => hn ?_⟩
  rw [List.mem_cons] at hmem ⊢
  exact hmem.imp_right (hperm n).mp

/-! ## Removal -/

/-- Removal of the first node of a ring that has others. -/
theorem linkedListRemove_first {h : Heap ν} {e q : ν} {t : List ν} (hr : IsRing h (e :: q :: t)) :
    ∃ h', linkedListRemove h e = some h' ∧ IsRing h' (q :: t)
      ∧ h'.next e = none ∧ h'.prev e = none
      ∧ ∀ n ∉ e :: q :: t, h'.next n = h.next n ∧ h'.prev n = h.prev n := by
  obtain ⟨init, z, hz⟩ : ∃ init z, q :: t = init ++ [z] :=
    ⟨_, _, (List.dropLast_append_getLast (List.cons_ne_nil q t)).symm⟩
  obtain ⟨heqt, hnodup⟩ := List.nodup_cons.mp hr.nodup
  have hzmem : z ∈ q :: t := hz ▸ List.mem_append_right init (List.mem_singleton_self z)
  have heq : e ≠ q := fun h => heqt (h ▸ List.mem_cons_self)
  have hez : e ≠ z := fun h => heqt (h ▸ hzmem)
  have hnext := hr.linked_next (List.cons_append : q :: t ++ [e] = q :: (t ++ [e]))
  have hprev : Linked h z e :=
    hr.linked_prev ((congrArg (e :: ·) hz).trans List.cons_append.symm)
  refine ⟨(((h.setNext z (some q)).setPrev q (some z)).setNext e none).setPrev e none,
    ?_, ?_, by simp, by simp, ?_⟩
  · simp [linkedListRemove, hnext.1, hprev.2]
  · refine isRing_cons_iff.mpr ⟨hnodup, ?_⟩
    have hlast : (q :: t).getLast? = some z := by rw [hz, List.getLast?_concat]
    rw [← List.cons_append, List.isChain_append]
    refine ⟨?_, List.isChain_singleton q, fun x hx y hy => ?_⟩
    · -- between `q` and the last node nothing has changed
      refine isChain_linked_congr hr.inner (fun a ha => ?_) fun b hb => ?_
      · have haz : a ≠ z := fun h => by
          rw [hz, List.dropLast_concat] at ha
          exact (List.disjoint_of_nodup_append (hz ▸ hnodup)) (h ▸ ha) (List.mem_singleton_self z)
        have hae : a ≠ e := fun h => heqt (h ▸ List.mem_of_mem_dropLast ha)
        simp [haz, hae]
      · have hbq : b ≠ q := fun h => (List.nodup_cons.mp hnodup).1 (h ▸ hb)
        have hbe : b ≠ e := fun h => heqt (h ▸ List.mem_cons_of_mem q hb)
        simp [hbq, hbe]
    · obtain rfl : z = x := Option.some.inj (hlast.symm.trans hx)
      obtain rfl : q = y := Option.some.inj hy
      exact ⟨by simp [hez.symm], by simp [heq.symm]⟩
  · intro n hn
    obtain ⟨hne, hnqt⟩ := not_or.mp (fun hor => hn (List.mem_cons.mpr hor))
    have hnz : n ≠ z := fun h => hnqt (h ▸ hzmem)
    have hnq : n ≠ q := fun h => hnqt (h ▸ List.mem_cons_self)
    simp [hne, hnz, hnq]

/-- **Removal**: the element is gone and unlinked, the others keep their order. -/
theorem linkedListRemove_spec {h : Heap ν} {hd e : ν} {ys zs : List ν}
    (hr : IsRing h (hd :: (ys ++ e :: zs))) :
    ∃ h', linkedListRemove h e = some h' ∧ IsRing h' (hd :: (ys ++ zs))
      ∧ h'.next e = none ∧ h'.prev e = none
      ∧ LeavesAlone h h' (hd :: (ys ++ e :: zs)) := by
  have hperm : ∀ n, n ∈ (e :: zs) ++ (hd :: ys) ↔ n ∈ hd :: (ys ++ e :: zs) := fun n => by
    simp only [List.mem_cons, List.mem_append]
    tauto
  have hfirst : IsRing h ((e :: zs) ++ (hd :: ys)) := IsRing.rotate hr
  obtain ⟨q, t, hq⟩ : ∃ q t, zs ++ hd :: ys = q :: t :=
    List.exists_cons_of_length_pos (by simp)
  rw [List.cons_append, hq] at hfirst hperm
  obtain ⟨h', heq, hring, hnext, hprev, hsame⟩ := linkedListRemove_first hfirst
  rw [← hq] at hring
  exact ⟨h', heq, IsRing.rotate hring, hnext, hprev,
    leavesAlone_of_pointers fun n hn => hsame n fun hmem => hn ((hperm n).mp hmem)⟩

/-! ## Emptiness -/

theorem linkedListEmpty_spec {h : Heap ν} {hd : ν} {xs : List ν} (hr : IsRing h (hd :: xs)) :
    linkedListEmpty h hd = some (decide (xs = [])) := by
  have hguard := hr.ne_none List.mem_cons_self
  cases xs with
  | nil =>
      have hnext := hr.linked_next (List.nil_append [hd])
      simp [linkedListEmpty, hguard, hnext.1]
  | cons a xs =>
      have hnext := hr.linked_next (List.cons_append : a :: xs ++ [hd] = a :: (xs ++ [hd]))
      have hne : a ≠ hd := fun h => (List.nodup_cons.mp hr.nodup).1 (h ▸ List.mem_cons_self)
      simp [linkedListEmpty, hguard, hnext.1, hne]

/-! ## Concatenation -/

/-- Taking the elements of a list that has some. -/
theorem linkedListTake_cons {h : Heap ν} {target source a : ν} {ts ss : List ν}
    (ht : IsRing h (target :: ts)) (hs : IsRing h (source :: a :: ss))
    (hdisj : (target :: ts).Disjoint (source :: a :: ss)) :
    ∃ h', linkedListTake h target source = some h' ∧ IsRing h' (target :: (a :: ss ++ ts))
      ∧ IsRing h' [source]
      ∧ ∀ n ∉ (target :: ts) ++ (source :: a :: ss), h'.next n = h.next n ∧ h'.prev n = h.prev n := by
  obtain ⟨init, z, hz⟩ : ∃ init z, a :: ss = init ++ [z] :=
    ⟨_, _, (List.dropLast_append_getLast (List.cons_ne_nil a ss)).symm⟩
  obtain ⟨b, u, hb⟩ := exists_next ts target
  obtain ⟨htnodup, htchain⟩ := isRing_cons_iff.mp ht
  obtain ⟨hsource, hssnodup⟩ := List.nodup_cons.mp hs.nodup
  have hzmem : z ∈ a :: ss := hz ▸ List.mem_append_right init (List.mem_singleton_self z)
  have hmem : ∀ n, n ∈ b :: u ↔ n ∈ target :: ts := fun n => by
    rw [← hb, List.mem_append, List.mem_singleton, List.mem_cons, or_comm]
  -- no node of one list is a node of the other
  have hapart : ∀ {m n}, m ∈ target :: ts → n ∈ source :: a :: ss → m ≠ n := fun hm hn h =>
    hdisj hm (h ▸ hn)
  have htm : target ∈ target :: ts := List.mem_cons_self
  have hbm : b ∈ target :: ts := (hmem b).mp List.mem_cons_self
  have ham : a ∈ source :: a :: ss := List.mem_cons_of_mem _ List.mem_cons_self
  have hzm : z ∈ source :: a :: ss := List.mem_cons_of_mem _ hzmem
  have hsm : source ∈ source :: a :: ss := List.mem_cons_self
  have hsa : source ≠ a := fun h => hsource (h ▸ List.mem_cons_self)
  have hsz : source ≠ z := fun h => hsource (h ▸ hzmem)
  have htb := ht.linked_next hb
  have hfirst := hs.linked_next (List.cons_append : a :: ss ++ [source] = a :: (ss ++ [source]))
  have hlast : Linked h z source :=
    hs.linked_prev ((congrArg (source :: ·) hz).trans List.cons_append.symm)
  have hempty := linkedListEmpty_spec hs
  refine ⟨linkedListInit ((((h.setPrev a (some target)).setNext z (some b)).setPrev b
    (some z)).setNext target (some a)) source, ?_, ?_, ?_, ?_⟩
  · simp [linkedListTake, hempty, hfirst.1, hlast.2, htb.1, hsa, hsz]
  · refine isRing_cons_iff.mpr ⟨?_, ?_⟩
    · have hts := List.nodup_cons.mp htnodup
      refine List.nodup_cons.mpr ⟨fun h => ?_, List.Nodup.append hssnodup hts.2 fun n hn hn' =>
        hapart (List.mem_cons_of_mem _ hn') (List.mem_cons_of_mem _ hn) rfl⟩
      rcases List.mem_append.mp h with h | h
      · exact hapart htm (List.mem_cons_of_mem _ h) rfl
      · exact hts.1 h
    · have hgetLast : (a :: ss).getLast? = some z := by rw [hz, List.getLast?_concat]
      rw [List.append_assoc, hb, List.cons_append, List.isChain_cons_cons, ← List.cons_append,
        List.isChain_append]
      refine ⟨⟨?_, ?_⟩, ?_, ?_, fun x hx y hy => ?_⟩
      · simp [linkedListInit, hapart htm hsm]
      · simp [linkedListInit, hsa.symm, (hapart hbm ham).symm]
      · -- the elements of `source` are linked as before, up to the last
        refine isChain_linked_congr hs.inner (fun n hn => ?_) fun n hn => ?_
        · have hnz : n ≠ z := fun h => by
            rw [hz, List.dropLast_concat] at hn
            exact (List.disjoint_of_nodup_append (hz ▸ hssnodup)) (h ▸ hn)
              (List.mem_singleton_self z)
          have hnm := List.mem_of_mem_dropLast hn
          have hns : n ≠ source := fun h => hsource (h ▸ hnm)
          have hnt := (hapart htm (List.mem_cons_of_mem _ hnm)).symm
          simp [linkedListInit, hnz, hns, hnt]
        · have hna : n ≠ a := fun h => (List.nodup_cons.mp hssnodup).1 (h ▸ hn)
          have hnm := List.mem_cons_of_mem a hn
          have hns : n ≠ source := fun h => hsource (h ▸ hnm)
          have hnb := (hapart hbm (List.mem_cons_of_mem _ hnm)).symm
          simp [linkedListInit, hna, hns, hnb]
      · -- and so are the elements of `target`, from the first on
        rw [hb] at htchain
        refine isChain_linked_congr (List.isChain_cons_cons.mp htchain).2 (fun n hn => ?_)
          fun n hn => ?_
        · rw [← hb, List.dropLast_concat] at hn
          have hnt : n ≠ target := fun h => (List.nodup_cons.mp htnodup).1 (h ▸ hn)
          have hnm := List.mem_cons_of_mem target hn
          simp [linkedListInit, hnt, hapart hnm hzm, hapart hnm hsm]
        · have hnodup : (b :: u).Nodup := hb ▸ List.nodup_append_comm.mp htnodup
          have hnb : n ≠ b := fun h => (List.nodup_cons.mp hnodup).1 (h ▸ hn)
          have hnm := (hmem n).mp (List.mem_cons_of_mem b hn)
          simp [linkedListInit, hnb, hapart hnm ham, hapart hnm hsm]
      · obtain rfl : z = x := Option.some.inj (hgetLast.symm.trans hx)
        obtain rfl : b = y := Option.some.inj hy
        exact ⟨by simp [linkedListInit, hsz.symm, (hapart htm hzm).symm],
          by simp [linkedListInit, hapart hbm hsm]⟩
  · refine isRing_cons_iff.mpr ⟨List.nodup_singleton source, ?_⟩
    rw [List.nil_append, List.isChain_pair]
    exact ⟨by simp [linkedListInit], by simp [linkedListInit]⟩
  · intro n hn
    obtain ⟨hnt, hns⟩ := not_or.mp (fun hor => hn (List.mem_append.mpr hor))
    have hne : ∀ {m}, m ∈ target :: ts → n ≠ m := fun hm h => hnt (h ▸ hm)
    have hne' : ∀ {m}, m ∈ source :: a :: ss → n ≠ m := fun hm h => hns (h ▸ hm)
    simp [linkedListInit, hne htm, hne hbm, hne' ham, hne' hzm, hne' hsm]

/-- **Concatenation**: the elements of `source` come before those of `target`, and `source` is
empty. -/
theorem linkedListTake_spec {h : Heap ν} {target source : ν} {ts ss : List ν}
    (ht : IsRing h (target :: ts)) (hs : IsRing h (source :: ss))
    (hdisj : (target :: ts).Disjoint (source :: ss)) :
    ∃ h', linkedListTake h target source = some h' ∧ IsRing h' (target :: (ss ++ ts))
      ∧ IsRing h' [source] ∧ LeavesAlone h h' ((target :: ts) ++ (source :: ss)) := by
  cases ss with
  | nil =>
      refine ⟨h, ?_, ht, hs, leavesAlone_of_pointers fun n _ => ⟨rfl, rfl⟩⟩
      simp [linkedListTake, linkedListEmpty_spec hs]
  | cons a ss =>
      obtain ⟨h', heq, hring, hsource, hsame⟩ := linkedListTake_cons ht hs hdisj
      exact ⟨h', heq, hring, hsource, leavesAlone_of_pointers hsame⟩

/-! ## Sequences -/

/-- **The list functions refine sequences.** On rings that are disjoint from each other, insertion
puts an unlinked node right after any node, removal takes an element out, and taking puts the
elements of one list in front of those of another and leaves the first empty. All lists are rings
again, and the nodes of every other list are as before. -/
theorem linkedList_refines (h : Heap ν) :
    (∀ (ys zs : List ν) (p e : ν), IsRing h (ys ++ p :: zs) → e ∉ ys ++ p :: zs →
      h.prev e = h.next e →
      ∃ h', linkedListInsert h p e = some h' ∧ IsRing h' (ys ++ p :: e :: zs)
        ∧ LeavesAlone h h' (e :: (ys ++ p :: zs)))
    ∧ (∀ (hd e : ν) (ys zs : List ν), IsRing h (hd :: (ys ++ e :: zs)) →
      ∃ h', linkedListRemove h e = some h' ∧ IsRing h' (hd :: (ys ++ zs))
        ∧ h'.next e = none ∧ h'.prev e = none ∧ LeavesAlone h h' (hd :: (ys ++ e :: zs)))
    ∧ ∀ (target source : ν) (ts ss : List ν), IsRing h (target :: ts) → IsRing h (source :: ss) →
      (target :: ts).Disjoint (source :: ss) →
      ∃ h', linkedListTake h target source = some h' ∧ IsRing h' (target :: (ss ++ ts))
        ∧ IsRing h' [source] ∧ LeavesAlone h h' ((target :: ts) ++ (source :: ss)) :=
  ⟨fun _ _ _ _ => linkedListInsert_spec, fun _ _ _ _ => linkedListRemove_spec,
    fun _ _ _ _ => linkedListTake_spec⟩

/-- Two lists: 1 and 2 behind the head 0, and 4 behind the head 3. The node 5 is in neither. -/
def twoLists : Heap Nat where
  next n := [1, 2, 0, 4, 3][n]?
  prev n := [2, 0, 1, 4, 3][n]?

/-- The node is inserted between 1 and 2; or 1 is removed; or the second list is taken into the
first. -/
theorem linkedList_refines_twoLists :
    (∃ h', linkedListInsert twoLists 1 5 = some h' ∧ IsRing h' [0, 1, 5, 2]
        ∧ LeavesAlone twoLists h' [5, 0, 1, 2])
    ∧ (∃ h', linkedListRemove twoLists 1 = some h' ∧ IsRing h' [0, 2] ∧ h'.next 1 = none
        ∧ h'.prev 1 = none ∧ LeavesAlone twoLists h' [0, 1, 2])
    ∧ ∃ h', linkedListTake twoLists 0 3 = some h' ∧ IsRing h' [0, 4, 1, 2] ∧ IsRing h' [3]
        ∧ LeavesAlone twoLists h' [0, 1, 2, 3, 4] := by
  have hfirst : IsRing twoLists [0, 1, 2] :=
    isRing_cons_iff.mpr ⟨by decide, by simp [Linked, twoLists]⟩
  have hsecond : IsRing twoLists [3, 4] :=
    isRing_cons_iff.mpr ⟨by decide, by simp [Linked, twoLists]⟩
  obtain ⟨hinsert, hremove, htake⟩ := linkedList_refines twoLists
  exact ⟨hinsert [0] [2] 1 5 hfirst (by decide) rfl, hremove 0 1 [] [2] hfirst,
    htake 0 3 [1, 2] [4] hfirst hsecond (by simp)⟩

end DdeSeatd
