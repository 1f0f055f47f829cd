import Mathlib.Tactic

set_option autoImplicit false

/-! # Labelled transition systems

A transition relation `T a s s'` with labels `a`, and the paths along it. A path is indexed by
a condition `P` on its labels, so that a statement about what a piece of code does can say
which labels it uses. A function that is shown to run along a path inherits every property
the transitions with these labels preserve (`Path.invariant`). A weak path lists its labels and
allows silent moves between them.
-/

namespace Labelled

variable {α σ : Type} {T : α → σ → σ → Prop} {P Q : α → Prop}

/-- A path whose labels all satisfy `P`. -/
inductive Path (T : α → σ → σ → Prop) (P : α → Prop) : σ → σ → Prop where
  | refl (s : σ) : Path T P s s
  | head {s s' s'' : σ} (a : α) (hp : P a) (ht : T a s s') (hpath : Path T P s' s'') :
      Path T P s s''

theorem Path.single {s s' : σ} (a : α) (hp : P a) (ht : T a s s') : Path T P s s' :=
  .head a hp ht (.refl s')

theorem Path.trans {s s' s'' : σ} (h : Path T P s s') (h' : Path T P s' s'') : Path T P s s'' := by
  induction h with
  | refl => exact h'
  | head a hp ht _ ih => exact .head a hp ht (ih h')

/-- A label more at the end. -/
theorem Path.tail {s s' s'' : σ} (h : Path T P s s') (a : α) (hp : P a) (ht : T a s' s'') :
    Path T P s s'' :=
  h.trans (.single a hp ht)

theorem Path.mono (hPQ : ∀ a, P a → Q a) {s s' : σ} (h : Path T P s s') : Path T Q s s' := by
  induction h with
  | refl => exact .refl _
  | head a hp ht _ ih => exact .head a (hPQ a hp) ht ih

/-- **Invariant rule.** What every transition with an admitted label preserves, a path
preserves. -/
theorem Path.invariant {I : σ → Prop} (hstep : ∀ a s s', P a → T a s s' → I s → I s') {s s' : σ}
    (h : Path T P s s') : I s → I s' := by
  induction h with
  | refl => exact id
  | head a hp ht _ ih => exact fun hs => ih (hstep a _ _ hp ht hs)

/-! ## Weak paths

A weak path lists its labels, and silent moves `S` may stand between them. It is for statements
that count or order the labels. -/

/-- A path with exactly these labels, and silent moves anywhere. -/
inductive Weak (S : σ → σ → Prop) (T : α → σ → σ → Prop) : List α → σ → σ → Prop where
  | refl (s : σ) : Weak S T [] s s
  | silent {s s' s'' : σ} {as : List α} (hs : S s s') (h : Weak S T as s' s'') : Weak S T as s s''
  | label {s s' s'' : σ} {a : α} {as : List α} (ht : T a s s') (h : Weak S T as s' s'') :
      Weak S T (a :: as) s s''

variable {S : σ → σ → Prop} {as bs : List α} {s s' s'' : σ}

theorem Weak.quiet (hs : S s s') : Weak S T [] s s' := .silent hs (.refl s')

theorem Weak.one {a : α} (ht : T a s s') : Weak S T [a] s s' := .label ht (.refl s')

theorem Weak.append (h : Weak S T as s s') (h' : Weak S T bs s' s'') :
    Weak S T (as ++ bs) s s'' := by
  induction h with
  | refl => exact h'
  | silent hs _ ih => exact .silent hs (ih h')
  | label ht _ ih => exact .label ht (ih h')

/-- A silent move more at the end. -/
theorem Weak.thenQuiet (h : Weak S T as s s') (hs : S s' s'') : Weak S T as s s'' := by
  have happend := h.append (Weak.quiet (T := T) hs)
  rwa [List.append_nil] at happend

/-- **Invariant rule.** What silent moves and every label of the path preserve, the path
preserves. -/
theorem Weak.invariant {I : σ → Prop} (h : Weak S T as s s')
    (hsilent : ∀ s s', S s s' → I s → I s')
    (hlabel : ∀ a ∈ as, ∀ s s', T a s s' → I s → I s') : I s → I s' := by
  induction h with
  | refl => exact id
  | silent hs _ ih => exact fun hi => ih hlabel (hsilent _ _ hs hi)
  | label ht _ ih =>
      intro hi
      apply ih fun b hb => hlabel b (List.mem_cons_of_mem _ hb)
      exact hlabel _ List.mem_cons_self _ _ ht hi

end Labelled
