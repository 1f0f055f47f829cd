import Mathlib.Tactic

set_option autoImplicit false

/-! # Runs of a step function

A deterministic system is a step function `step : σ → ι → σ`; everything the environment may
choose is part of the input `ι`. A run is a list of inputs. Two invariant rules are enough
for safety properties: `run_invariant` for properties every step preserves, and
`run_invariant_of_meets` for properties preserved by the steps that meet a condition in the
state they are taken in.
-/

namespace Run

variable {σ ι : Type} {step : σ → ι → σ}

/-- The state after a run. -/
def run (step : σ → ι → σ) (s : σ) (is : List ι) : σ := is.foldl step s

/-- Every step of the run meets the condition `C` in the state it is taken in. -/
def Meets (step : σ → ι → σ) (C : σ → ι → Prop) : σ → List ι → Prop
  | _, [] => True
  | s, i :: is => C s i ∧ Meets step C (step s i) is

instance Meets.decidable (step : σ → ι → σ) (C : σ → ι → Prop) [∀ s i, Decidable (C s i)] :
    ∀ s is, Decidable (Meets step C s is)
  | _, [] => .isTrue trivial
  | s, i :: is =>
      have := Meets.decidable step C (step s i) is
      inferInstanceAs (Decidable (C s i ∧ Meets step C (step s i) is))

@[simp] theorem run_nil (s : σ) : run step s [] = s := rfl

@[simp] theorem run_cons (s : σ) (i : ι) (is : List ι) :
    run step s (i :: is) = run step (step s i) is := rfl

theorem run_append (s : σ) (is js : List ι) :
    run step s (is ++ js) = run step (run step s is) js := List.foldl_append

/-- **Invariant rule.** -/
theorem run_invariant {P : σ → Prop} (hstep : ∀ s i, P s → P (step s i)) {s : σ} (h : P s) :
    ∀ is, P (run step s is)
  | [] => h
  | i :: is => run_invariant hstep (hstep s i h) is

/-- **Invariant rule under a step condition.** -/
theorem run_invariant_of_meets {P : σ → Prop} {C : σ → ι → Prop}
    (hstep : ∀ s i, P s → C s i → P (step s i)) {s : σ} (h : P s) :
    ∀ is, Meets step C s is → P (run step s is)
  | [], _ => h
  | i :: is, ⟨hc, hs⟩ => run_invariant_of_meets hstep (hstep s i h hc) is hs

theorem meets_of_forall {C : σ → ι → Prop} (h : ∀ s i, C s i) (s : σ) :
    ∀ is, Meets step C s is
  | [] => trivial
  | i :: is => ⟨h s i, meets_of_forall h (step s i) is⟩

/-- A condition on the inputs alone, together with one on the states they are taken in. -/
theorem meets_and_of_forall {D : ι → Prop} {C : σ → ι → Prop} {s : σ} {is : List ι}
    (hD : ∀ i ∈ is, D i) (hC : Meets step C s is) : Meets step (fun s i => D i ∧ C s i) s is := by
  induction is generalizing s with
  | nil => trivial
  | cons i is ih =>
      exact ⟨⟨hD i List.mem_cons_self, hC.1⟩,
        ih (fun j hj => hD j (List.mem_cons_of_mem i hj)) hC.2⟩

theorem meets_append {C : σ → ι → Prop} (s : σ) (is js : List ι) :
    Meets step C s (is ++ js) ↔ Meets step C s is ∧ Meets step C (run step s is) js := by
  induction is generalizing s with
  | nil => simp [Meets]
  | cons i is ih =>
      simp only [List.cons_append, Meets, run_cons, ih, and_assoc]

/-- A condition that another one gives in the states of an invariant it keeps. -/
theorem meets_of_meets {I : σ → Prop} {C D : σ → ι → Prop} (hI : ∀ s i, I s → C s i → I (step s i))
    (h : ∀ s i, I s → C s i → D s i) {s : σ} (hs : I s) :
    ∀ is, Meets step C s is → Meets step D s is
  | [], _ => trivial
  | i :: is, ⟨hc, hrest⟩ => ⟨h s i hs hc, meets_of_meets hI h (hI s i hs hc) is hrest⟩

/-- A system that carries more state than the condition looks at. -/
theorem meets_map {τ : Type} {g : τ → ι → τ} {f : τ → σ}
    (hf : ∀ t i, f (g t i) = step (f t) i) {C : σ → ι → Prop} (t : τ) (is : List ι) :
    Meets g (fun t i => C (f t) i) t is ↔ Meets step C (f t) is := by
  induction is generalizing t with
  | nil => exact Iff.rfl
  | cons i is ih =>
      simp only [Meets]
      rw [ih, hf]

/-- A step condition that is exactly right: the steps that meet `C` preserve an invariant `I`
that implies `P`, and those that do not break `P`. Then a run has `P` all the way if and only if
its steps meet `C`. This is for runs of inputs in `D`. -/
theorem forall_prefix_iff_meets_of_forall {D : ι → Prop} {I P : σ → Prop} {C : σ → ι → Prop}
    (hI : ∀ s, I s → P s) (hgood : ∀ s i, D i → I s → C s i → I (step s i))
    (hbad : ∀ s i, D i → I s → P (step s i) → C s i)
    {s : σ} (h : I s) (is : List ι) (hD : ∀ i ∈ is, D i) :
    (∀ pre, pre <+: is → P (run step s pre)) ↔ Meets step C s is := by
  induction is generalizing s with
  | nil =>
      refine ⟨fun _ => trivial, fun _ pre hpre => ?_⟩
      rw [List.prefix_nil.mp hpre]
      exact hI s h
  | cons i is ih =>
      have hi := hD i List.mem_cons_self
      have his : ∀ j ∈ is, D j := fun j hj => hD j (List.mem_cons_of_mem i hj)
      constructor
      · intro hP
        have hc : C s i := hbad s i hi h (hP [i] ⟨is, rfl⟩)
        refine ⟨hc, (ih (hgood s i hi h hc) his).mp fun pre hpre => ?_⟩
        exact hP (i :: pre) (List.cons_prefix_cons.mpr ⟨rfl, hpre⟩)
      · rintro ⟨hc, hmeets⟩ pre hpre
        cases pre with
        | nil => exact hI s h
        | cons j pre =>
            obtain ⟨rfl, htail⟩ := List.cons_prefix_cons.mp hpre
            exact (ih (hgood s j hi h hc) his).mpr hmeets pre htail

/-- The same for all inputs. -/
theorem forall_prefix_iff_meets {I P : σ → Prop} {C : σ → ι → Prop} (hI : ∀ s, I s → P s)
    (hgood : ∀ s i, I s → C s i → I (step s i)) (hbad : ∀ s i, I s → P (step s i) → C s i)
    {s : σ} (h : I s) (is : List ι) :
    (∀ pre, pre <+: is → P (run step s pre)) ↔ Meets step C s is :=
  forall_prefix_iff_meets_of_forall (D := fun _ => True) hI (fun s i _ => hgood s i)
    (fun s i _ => hbad s i) h is fun _ _ => trivial

/-- The same for the runs at whose end `Q` holds, where `Q` does not come back once it is lost. -/
theorem forall_prefix_iff_meets_while {J P Q : σ → Prop} {C : σ → ι → Prop}
    (hJ : ∀ s i, J s → J (step s i)) (hQ : ∀ s i, J s → Q (step s i) → Q s)
    (hgood : ∀ s i, J s → P s → Q (step s i) → C s i → P (step s i))
    (hbad : ∀ s i, J s → P s → Q (step s i) → P (step s i) → C s i)
    {s : σ} (hs : J s) (hP : P s) (is : List ι) (hend : Q (run step s is)) :
    (∀ pre, pre <+: is → P (run step s pre)) ↔ Meets step C s is := by
  have hback : ∀ (is : List ι) (s : σ), J s → Q (run step s is) → Q s := by
    intro is
    induction is with
    | nil => exact fun _ _ h => h
    | cons i is ih => exact fun s hs h => hQ s i hs (ih (step s i) (hJ s i hs) h)
  induction is generalizing s with
  | nil =>
      refine ⟨fun _ => trivial, fun _ pre hpre => ?_⟩
      rw [List.prefix_nil.mp hpre]
      exact hP
  | cons i is ih =>
      have hnext : Q (step s i) := hback is (step s i) (hJ s i hs) hend
      constructor
      · intro hall
        have hone : P (step s i) := hall [i] ⟨is, rfl⟩
        refine ⟨hbad s i hs hP hnext hone, (ih (hJ s i hs) hone hend).mp fun pre hpre => ?_⟩
        exact hall (i :: pre) (List.cons_prefix_cons.mpr ⟨rfl, hpre⟩)
      · rintro ⟨hc, hmeets⟩ pre hpre
        cases pre with
        | nil => exact hP
        | cons j pre =>
            obtain ⟨rfl, htail⟩ := List.cons_prefix_cons.mp hpre
            exact (ih (hJ s j hs) (hgood s j hs hP hnext hc) hend).mpr hmeets pre htail

/-! ## Loops that empty a list -/

section

variable {α : Type} {list : σ → List α} {take : σ → α → σ}

/-- `while (!empty(list)) take(first)`, for at most `fuel` rounds. -/
def drain (list : σ → List α) (take : σ → α → σ) : Nat → σ → σ
  | 0, s => s
  | fuel + 1, s =>
      match list s with
      | [] => s
      | a :: _ => drain list take fuel (take s a)

/-- **Invariant rule.** If every round shortens the list, the loop ends, with the list empty. -/
theorem drain_invariant {I : σ → Prop}
    (htake : ∀ s a rest, I s → list s = a :: rest →
      I (take s a) ∧ (list (take s a)).length ≤ rest.length)
    {fuel : Nat} {s : σ} (hs : I s) (hfuel : (list s).length ≤ fuel) :
    I (drain list take fuel s) ∧ list (drain list take fuel s) = [] := by
  induction fuel generalizing s with
  | zero => exact ⟨hs, List.eq_nil_of_length_eq_zero (Nat.le_zero.mp hfuel)⟩
  | succ fuel ih =>
      rw [drain]
      cases hlist : list s with
      | nil => exact ⟨hs, hlist⟩
      | cons a rest =>
          obtain ⟨hnext, hshort⟩ := htake s a rest hs hlist
          rw [hlist, List.length_cons] at hfuel
          exact ih hnext (by omega)

end

end Run
