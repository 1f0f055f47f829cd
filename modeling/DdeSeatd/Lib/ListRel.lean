import Mathlib.Data.List.Forall2

set_option autoImplicit false

/-! # Lists related element by element

What `List.Forall₂ R l l'` says about single elements, and how updating one position of a list
relates the two. -/

namespace ListRel

variable {α β : Type} {R : α → β → Prop}

/-- Every element on the right comes from one on the left. -/
theorem exists_left {l : List α} {l' : List β} (h : List.Forall₂ R l l') {b : β} (hb : b ∈ l') :
    ∃ a ∈ l, R a b := by
  induction h with
  | nil => cases hb
  | cons hab _ ih =>
      rcases List.mem_cons.mp hb with rfl | hb
      · exact ⟨_, List.mem_cons_self, hab⟩
      · obtain ⟨a, ha, hR⟩ := ih hb
        exact ⟨a, List.mem_cons_of_mem _ ha, hR⟩

/-- Every element on the left has one on the right. -/
theorem exists_right {l : List α} {l' : List β} (h : List.Forall₂ R l l') {a : α} (ha : a ∈ l) :
    ∃ b ∈ l', R a b := by
  obtain ⟨b, hb, hR⟩ := exists_left h.flip ha
  exact ⟨b, hb, hR⟩

theorem forall₂_trans {R : α → α → Prop} (hR : ∀ a b c, R a b → R b c → R a c)
    {l l' l'' : List α} (h : List.Forall₂ R l l') (h' : List.Forall₂ R l' l'') :
    List.Forall₂ R l l'' := by
  induction h generalizing l'' with
  | nil => exact h'
  | cons hab _ ih =>
      cases h' with
      | cons hbc h' => exact .cons (hR _ _ _ hab hbc) (ih h')

/-- Updating one element. -/
theorem forall₂_modify {R : α → α → Prop} {f : α → α} (hrefl : ∀ a, R a a)
    (hf : ∀ a, R a (f a)) : ∀ (l : List α) (i : Nat), List.Forall₂ R l (l.modify i f)
  | [], i => by rw [List.modify_nil]; exact .nil
  | a :: l, 0 => by
      rw [List.modify_zero_cons]
      exact .cons (hf a) (List.forall₂_same.mpr fun b _ => hrefl b)
  | a :: l, i + 1 => by
      rw [List.modify_succ_cons]
      exact .cons (hrefl a) (forall₂_modify hrefl hf l i)

/-- ... does not change what it keeps of it. -/
theorem map_modify {f : α → α} {g : α → β} (hg : ∀ a, g (f a) = g a) :
    ∀ (l : List α) (i : Nat), (l.modify i f).map g = l.map g
  | [], i => by rw [List.modify_nil]
  | a :: l, 0 => by rw [List.modify_zero_cons, List.map_cons, List.map_cons, hg]
  | a :: l, i + 1 => by
      rw [List.modify_succ_cons, List.map_cons, List.map_cons, map_modify hg l i]

/-- An element survives the removal of a position, or it was there. -/
theorem mem_eraseIdx_or {l : List α} {a : α} (h : a ∈ l) (i : Nat) :
    a ∈ l.eraseIdx i ∨ l[i]? = some a := by
  obtain ⟨j, hj⟩ := List.getElem?_of_mem h
  by_cases hij : j = i
  · exact Or.inr (hij ▸ hj)
  · exact Or.inl (List.mem_eraseIdx_iff_getElem?.mpr ⟨j, hij, hj⟩)

/-- What is related to the element behind `bs`. -/
theorem exists_getElem? {as : List α} {bs bs' : List β} {b : β}
    (h : List.Forall₂ R as (bs ++ b :: bs')) : ∃ a, as[bs.length]? = some a ∧ R a b := by
  have hdrop := List.forall₂_drop_append as bs (b :: bs') h
  cases hcases : as.drop bs.length with
  | nil =>
      rw [hcases] at hdrop
      cases hdrop
  | cons a rest =>
      rw [hcases] at hdrop
      have hget := congrArg (fun l : List α => l[0]?) hcases
      exact ⟨a, by simpa using hget, (List.forall₂_cons.mp hdrop).1⟩

/-- A list that goes on keeps its elements. -/
theorem getElem?_of_begun {l l' : List α} (h : l <+: l') {i : Nat} {a : α}
    (hget : l[i]? = some a) : l'[i]? = some a := by
  obtain ⟨more, rfl⟩ := h
  rw [List.getElem?_append_left (List.getElem?_eq_some_iff.mp hget).1]
  exact hget

end ListRel
