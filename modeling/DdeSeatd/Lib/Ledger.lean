import Mathlib.Tactic
import Mathlib.Algebra.BigOperators.Group.List.Basic

set_option autoImplicit false

/-! # Tokens issued, held and given back

A resource is issued under a number that has not been used before, held by one owner, and given
back once. A `Ledger` records which numbers were issued, which of them each owner holds, and which
were given back. It is balanced if every number issued is in exactly one place: with one owner, once,
or given back, once. Both ways in which the ledger changes keep it balanced
(`Balanced.issue`, `Balanced.retire`), and so does any sequence of them (`Steps.balanced`).
-/

/-- Numbers below `next` were issued; `retired` lists those given back. -/
structure Ledger (Owner : Type) where
  next : Nat
  held : Owner → List Nat
  retired : List Nat

namespace Ledger

variable {Owner : Type} {l l' l'' : Ledger Owner}

/-- Every number issued is held by exactly one owner, once, or was given back, once. -/
structure Balanced (l : Ledger Owner) : Prop where
  heldNodup : ∀ o, (l.held o).Nodup
  owner : ∀ {o o' t}, t ∈ l.held o → t ∈ l.held o' → o = o'
  retiredNodup : l.retired.Nodup
  disjoint : ∀ {o t}, t ∈ l.held o → t ∉ l.retired
  issued : ∀ t, t < l.next ↔ t ∈ l.retired ∨ ∃ o, t ∈ l.held o

theorem Balanced.held_lt (h : l.Balanced) {o : Owner} {t : Nat} (ht : t ∈ l.held o) : t < l.next :=
  (h.issued t).mpr (Or.inr ⟨o, ht⟩)

theorem Balanced.retired_lt (h : l.Balanced) {t : Nat} (ht : t ∈ l.retired) : t < l.next :=
  (h.issued t).mpr (Or.inl ht)

theorem balanced_empty : (⟨0, fun _ => [], []⟩ : Ledger Owner).Balanced where
  heldNodup := fun _ => List.nodup_nil
  owner := fun ht => absurd ht List.not_mem_nil
  retiredNodup := List.nodup_nil
  disjoint := fun ht => absurd ht List.not_mem_nil
  issued := by simp

variable [DecidableEq Owner]

theorem sum_map_ite_eq_count (o : Owner) (os : List Owner) :
    (os.map fun o' => if o' = o then 1 else 0).sum = os.count o := by
  induction os with
  | nil => rfl
  | cons o' os ih =>
      rw [List.map_cons, List.sum_cons, ih, List.count_cons]
      by_cases ho : o' = o
      · simp [ho, Nat.add_comm]
      · simp [ho]

/-- **The balance of a ledger as an equation**: a number issued is found once, and any other
nowhere. -/
theorem Balanced.count (h : l.Balanced) {owners : List Owner} (hnodup : owners.Nodup)
    (howners : ∀ o, l.held o ≠ [] → o ∈ owners) (t : Nat) :
    l.retired.count t + (owners.map fun o => (l.held o).count t).sum
      = if t < l.next then 1 else 0 := by
  by_cases hheld : ∃ o, t ∈ l.held o
  · obtain ⟨o, ho⟩ := hheld
    have hcount : ∀ o', (l.held o').count t = if o' = o then 1 else 0 := by
      intro o'
      by_cases heq : o' = o
      · rw [if_pos heq, heq]
        exact List.count_eq_one_of_mem (h.heldNodup o) ho
      · rw [if_neg heq]
        exact List.count_eq_zero.mpr fun ho' => heq (h.owner ho' ho)
    have hone : owners.count o = 1 :=
      List.count_eq_one_of_mem hnodup (howners o (List.ne_nil_of_mem ho))
    rw [if_pos (h.held_lt ho), List.count_eq_zero.mpr (h.disjoint ho)]
    simp only [hcount]
    rw [sum_map_ite_eq_count, hone]
  · have hzero : (owners.map fun o => (l.held o).count t).sum = 0 := by
      refine List.sum_eq_zero fun n hn => ?_
      obtain ⟨o, -, rfl⟩ := List.mem_map.mp hn
      exact List.count_eq_zero.mpr fun ho => hheld ⟨o, ho⟩
    rw [hzero, Nat.add_zero]
    by_cases hret : t ∈ l.retired
    · rw [if_pos (h.retired_lt hret)]
      exact List.count_eq_one_of_mem h.retiredNodup hret
    · rw [if_neg fun hlt => ((h.issued t).mp hlt).elim hret hheld]
      exact List.count_eq_zero.mpr hret

/-! ## The two changes -/

/-- The next number is issued to `o`. -/
def issue (l : Ledger Owner) (o : Owner) : Ledger Owner :=
  { l with next := l.next + 1, held := Function.update l.held o (l.next :: l.held o) }

/-- `o` gives back the number `t`, at position `i` of what it holds. -/
def retire (l : Ledger Owner) (o : Owner) (i t : Nat) : Ledger Owner :=
  { l with held := Function.update l.held o ((l.held o).eraseIdx i), retired := t :: l.retired }

theorem mem_held_issue {o o' : Owner} {t : Nat} :
    t ∈ (l.issue o).held o' ↔ t ∈ l.held o' ∨ o' = o ∧ t = l.next := by
  by_cases ho : o' = o
  · subst ho
    simp [issue, or_comm]
  · simp [issue, ho]

theorem Balanced.issue (h : l.Balanced) (o : Owner) : (l.issue o).Balanced := by
  have hnew : ∀ o', l.next ∉ l.held o' := fun o' ht => absurd (h.held_lt ht) (Nat.lt_irrefl _)
  refine ⟨fun o' => ?_, fun {o₁ o₂ t} h₁ h₂ => ?_, h.retiredNodup, fun {o' t} ht => ?_, fun t => ?_⟩
  · by_cases ho : o' = o
    · subst ho
      simpa [Ledger.issue] using ⟨hnew o', h.heldNodup o'⟩
    · simpa [Ledger.issue, ho] using h.heldNodup o'
  · rcases mem_held_issue.mp h₁ with h₁ | ⟨ho₁, ht₁⟩ <;>
      rcases mem_held_issue.mp h₂ with h₂ | ⟨ho₂, ht₂⟩
    · exact h.owner h₁ h₂
    · exact absurd (ht₂ ▸ h₁) (hnew o₁)
    · exact absurd (ht₁ ▸ h₂) (hnew o₂)
    · exact ho₁.trans ho₂.symm
  · rcases mem_held_issue.mp ht with ht | ⟨-, rfl⟩
    · exact h.disjoint ht
    · exact fun hr => absurd (h.retired_lt hr) (Nat.lt_irrefl _)
  · have hmem : (∃ o', t ∈ (l.issue o).held o') ↔ (∃ o', t ∈ l.held o') ∨ t = l.next := by
      simp only [mem_held_issue]
      constructor
      · rintro ⟨o', ht | ⟨-, ht⟩⟩
        · exact Or.inl ⟨o', ht⟩
        · exact Or.inr ht
      · rintro (⟨o', ht⟩ | ht)
        · exact ⟨o', Or.inl ht⟩
        · exact ⟨o, Or.inr ⟨rfl, ht⟩⟩
    have hold := h.issued t
    show t < l.next + 1 ↔ t ∈ l.retired ∨ ∃ o', t ∈ (l.issue o).held o'
    rw [hmem, ← or_assoc, ← hold]
    omega

/-- What is held after a number was given back is everything else. -/
theorem Balanced.mem_held_retire (h : l.Balanced) {o o' : Owner} {i t t' : Nat}
    (ht : (l.held o)[i]? = some t) :
    t' ∈ (l.retire o i t).held o' ↔ t' ∈ l.held o' ∧ t' ≠ t := by
  have hmem : t ∈ l.held o := List.mem_of_getElem? ht
  by_cases ho : o' = o
  · subst ho
    obtain ⟨hi, rfl⟩ := List.getElem?_eq_some_iff.mp ht
    simp [Ledger.retire, ← (h.heldNodup o').erase_getElem i hi, (h.heldNodup o').mem_erase_iff,
      and_comm]
  · have hne : t' ∈ l.held o' → t' ≠ t := fun ht' heq => ho (h.owner (heq ▸ ht') hmem)
    simpa [Ledger.retire, ho] using hne

theorem Balanced.retire (h : l.Balanced) {o : Owner} {i t : Nat}
    (ht : (l.held o)[i]? = some t) : (l.retire o i t).Balanced := by
  have hmem : t ∈ l.held o := List.mem_of_getElem? ht
  refine ⟨fun o' => ?_, fun {o₁ o₂ t'} h₁ h₂ => ?_, ?_, fun {o' t'} ht' => ?_, fun t' => ?_⟩
  · by_cases ho : o' = o
    · subst ho
      simpa [Ledger.retire] using (h.heldNodup o').eraseIdx i
    · simpa [Ledger.retire, ho] using h.heldNodup o'
  · exact h.owner ((h.mem_held_retire ht).mp h₁).1 ((h.mem_held_retire ht).mp h₂).1
  · exact List.nodup_cons.mpr ⟨h.disjoint hmem, h.retiredNodup⟩
  · obtain ⟨ht', hne⟩ := (h.mem_held_retire ht).mp ht'
    exact fun hr => (List.mem_cons.mp hr).elim hne (h.disjoint ht')
  · show t' < l.next ↔ t' ∈ t :: l.retired ∨ ∃ o', t' ∈ (l.retire o i t).held o'
    simp only [h.mem_held_retire ht, List.mem_cons, h.issued t']
    by_cases heq : t' = t
    · subst heq
      exact iff_of_true (Or.inr ⟨o, hmem⟩) (Or.inl (Or.inl rfl))
    · simp [heq]

/-! ## Sequences of changes -/

inductive Step : Ledger Owner → Ledger Owner → Prop where
  | issue (l : Ledger Owner) (o : Owner) : Step l (l.issue o)
  | retire (l : Ledger Owner) (o : Owner) (i t : Nat) (h : (l.held o)[i]? = some t) :
      Step l (l.retire o i t)

/-- Any number of changes. -/
def Steps : Ledger Owner → Ledger Owner → Prop := Relation.ReflTransGen Step

theorem Steps.refl (l : Ledger Owner) : Steps l l := Relation.ReflTransGen.refl

theorem Steps.of_eq (h : l' = l) : Steps l l' := h ▸ .refl l

theorem Steps.trans (h : Steps l l') (h' : Steps l' l'') : Steps l l'' :=
  Relation.ReflTransGen.trans h h'

theorem Steps.single (h : Step l l') : Steps l l' := Relation.ReflTransGen.single h

/-- A number issued and given back at once. -/
theorem Steps.pass (l : Ledger Owner) (o : Owner) :
    Steps l { l with next := l.next + 1, retired := l.next :: l.retired } := by
  have hlast : (l.issue o).retire o 0 l.next
      = { l with next := l.next + 1, retired := l.next :: l.retired } := by
    simp [Ledger.issue, Ledger.retire]
  exact hlast ▸ (Steps.single (.issue l o)).trans
    (.single (.retire (l.issue o) o 0 l.next (by simp [Ledger.issue])))

/-- **Any sequence of changes keeps the ledger balanced.** -/
theorem Steps.balanced (h : Steps l l') (hl : l.Balanced) : l'.Balanced := by
  induction h with
  | refl => exact hl
  | tail _ hstep ih =>
      cases hstep with
      | issue o => exact ih.issue o
      | retire o i t ht => exact ih.retire ht

end Ledger

