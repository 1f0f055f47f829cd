import Mathlib.Control.Lawful

set_option autoImplicit false

/-! # Computations that may fail

Computations over a state `σ` that return or fail, `ExceptT ε (StateM σ)`, where a failure keeps
the changes made so far. `Spec P m Q E` says that from states with `P`, `m` returns with `Q` or
fails with `E`; `Keeps P m` says that `m` takes states with `P` to states with `P`, however it
ends. Both compose along the monad.
-/

namespace Fallible

variable {σ ε α β : Type}

/-- The result of a computation, and the state after it. -/
def outcome (m : ExceptT ε (StateM σ) α) (s : σ) : Except ε α × σ := m.run.run s

def Keeps (P : σ → Prop) (m : ExceptT ε (StateM σ) α) : Prop := ∀ s, P s → P (outcome m s).2

/-- The same for a computation that does not fail. -/
def Stays (P : σ → Prop) (m : StateM σ α) : Prop := ∀ s, P s → P (m.run s).2

theorem outcome_bind (m : ExceptT ε (StateM σ) α) (f : α → ExceptT ε (StateM σ) β) (s : σ) :
    outcome (m >>= f) s = match outcome m s with
      | (.ok a, s') => outcome (f a) s'
      | (.error e, s') => (.error e, s') := by
  unfold outcome
  rw [ExceptT.run_bind, StateT.run_bind]
  show (fun p : Except ε α × σ => _) (m.run.run s) = _
  rcases m.run.run s with ⟨_ | _, _⟩ <;> rfl

/-- A computation whose failure is caught by what follows. -/
theorem run_caught (m : ExceptT ε (StateM σ) α) (f : Except ε α → StateM σ β) (s : σ) :
    (m.run >>= f).run s = (f (outcome m s).1).run (outcome m s).2 := rfl

theorem outcome_get (s : σ) : outcome (get : ExceptT ε (StateM σ) σ) s = (.ok s, s) := rfl

theorem outcome_modify (f : σ → σ) (s : σ) :
    outcome (modify f : ExceptT ε (StateM σ) PUnit) s = (.ok ⟨⟩, f s) := rfl

theorem outcome_tryCatch (m : ExceptT ε (StateM σ) α) (handle : ε → ExceptT ε (StateM σ) α)
    (s : σ) : outcome (tryCatch m handle) s = match outcome m s with
      | (.ok a, s') => (.ok a, s')
      | (.error e, s') => outcome (handle e) s' := by
  show StateT.run (m.run >>= fun result => match result with
    | .ok a => pure (.ok a)
    | .error e => (handle e).run) s = _
  rw [StateT.run_bind]
  unfold outcome
  show (fun p : Except ε α × σ => _) (m.run.run s) = _
  rcases m.run.run s with ⟨_ | _, _⟩ <;> rfl

variable {P : σ → Prop}

theorem keeps_pure (a : α) : Keeps P (pure a : ExceptT ε (StateM σ) α) := fun _ h => h

theorem keeps_throw (e : ε) : Keeps P (throw e : ExceptT ε (StateM σ) α) := fun _ h => h

theorem keeps_modify {f : σ → σ} (hf : ∀ s, P s → P (f s)) :
    Keeps P (modify f : ExceptT ε (StateM σ) PUnit) := hf

/-- **Keeping composes.** -/
theorem Keeps.bind {m : ExceptT ε (StateM σ) α} {f : α → ExceptT ε (StateM σ) β} (hm : Keeps P m)
    (hf : ∀ a, Keeps P (f a)) : Keeps P (m >>= f) := by
  intro s hs
  have hmid := hm s hs
  rw [outcome_bind]
  rcases hout : outcome m s with ⟨result, s'⟩
  rw [hout] at hmid
  cases result with
  | error e => exact hmid
  | ok a => exact hf a s' hmid

theorem stays_pure (a : α) : Stays P (pure a : StateM σ α) := fun _ h => h

theorem Stays.bind {m : StateM σ α} {f : α → StateM σ β} (hm : Stays P m)
    (hf : ∀ a, Stays P (f a)) : Stays P (m >>= f) :=
  fun s hs => hf (m.run s).1 (m.run s).2 (hm s hs)

/-- A computation whose failure is caught stays where it keeps. -/
theorem Keeps.stays {m : ExceptT ε (StateM σ) α} (hm : Keeps P m) : Stays P m.run := hm

/-- A computation that looks at the state first. -/
theorem keeps_get_bind {f : σ → ExceptT ε (StateM σ) β}
    (hf : ∀ s, P s → P (outcome (f s) s).2) : Keeps P (get >>= f) := by
  intro s hs
  rw [outcome_bind]
  exact hf s hs

/-! ## Specifications -/

/-- A computation that returned did so with `Q`, and one that failed with `E`. -/
def Ends (Q : α → σ → Prop) (E : ε → σ → Prop) : Except ε α × σ → Prop
  | (.ok a, s) => Q a s
  | (.error e, s) => E e s

/-- From states with `P`, the computation returns with `Q` or fails with `E`. -/
def Spec (P : σ → Prop) (m : ExceptT ε (StateM σ) α) (Q : α → σ → Prop) (E : ε → σ → Prop) : Prop :=
  ∀ s, P s → Ends Q E (outcome m s)

variable {R : σ → Prop} {Q Q' : α → σ → Prop} {E E' : ε → σ → Prop}

theorem Spec.bind {m : ExceptT ε (StateM σ) α} {f : α → ExceptT ε (StateM σ) β}
    {Q' : β → σ → Prop} (hm : Spec P m Q E) (hf : ∀ a, Spec (Q a) (f a) Q' E) :
    Spec P (m >>= f) Q' E := by
  intro s hs
  have hmid := hm s hs
  rw [outcome_bind]
  rcases hout : outcome m s with ⟨result, s'⟩
  rw [hout] at hmid
  cases result with
  | error e => exact hmid
  | ok a => exact hf a s' hmid

/-- **The rule of consequence.** -/
theorem Spec.weaken {m : ExceptT ε (StateM σ) α} (hm : Spec P m Q E) (hP : ∀ s, R s → P s)
    (hQ : ∀ a s, Q a s → Q' a s) (hE : ∀ e s, E e s → E' e s) : Spec R m Q' E' := by
  intro s hs
  have hmid := hm s (hP s hs)
  rcases hout : outcome m s with ⟨result, s'⟩
  rw [hout] at hmid
  cases result with
  | error e => exact hE e s' hmid
  | ok a => exact hQ a s' hmid

theorem spec_pure {a : α} (h : ∀ s, P s → Q a s) :
    Spec P (pure a : ExceptT ε (StateM σ) α) Q E := h

theorem spec_throw {e : ε} (h : ∀ s, P s → E e s) :
    Spec P (throw e : ExceptT ε (StateM σ) α) Q E := h

theorem spec_modify {f : σ → σ} {Q : PUnit → σ → Prop} (h : ∀ s, P s → Q ⟨⟩ (f s)) :
    Spec P (modify f : ExceptT ε (StateM σ) PUnit) Q E := h

theorem spec_top (m : ExceptT ε (StateM σ) α) : Spec P m (fun _ _ => True) fun _ _ => True := by
  intro s _
  rcases outcome m s with ⟨_ | _, _⟩ <;> exact trivial

theorem Keeps.spec {m : ExceptT ε (StateM σ) α} (hm : Keeps P m) :
    Spec P m (fun _ => P) fun _ => P := by
  intro s hs
  have hend := hm s hs
  rcases hout : outcome m s with ⟨_ | _, s'⟩ <;> rw [hout] at hend <;> exact hend

theorem Spec.keeps {m : ExceptT ε (StateM σ) α} (hm : Spec P m (fun _ => P) fun _ => P) :
    Keeps P m := by
  intro s hs
  have hend := hm s hs
  rcases hout : outcome m s with ⟨_ | _, s'⟩ <;> rw [hout] at hend <;> exact hend

/-- A computation that looks at the state first. -/
theorem spec_get_bind {f : σ → ExceptT ε (StateM σ) α}
    (hf : ∀ s, P s → Ends Q E (outcome (f s) s)) : Spec P (get >>= f) Q E := by
  intro s hs
  rw [outcome_bind]
  exact hf s hs

/-- From states with `P`, a computation that does not fail returns with `Q`. -/
def Yields (P : σ → Prop) (m : StateM σ α) (Q : α → σ → Prop) : Prop :=
  ∀ s, P s → Q (m.run s).1 (m.run s).2

theorem yields_pure {a : α} {Q : α → σ → Prop} (h : ∀ s, P s → Q a s) :
    Yields P (pure a : StateM σ α) Q := h

theorem Yields.bind {m : StateM σ α} {f : α → StateM σ β} {Q : α → σ → Prop} {Z : β → σ → Prop}
    (hm : Yields P m Q) (hf : ∀ a, Yields (Q a) (f a) Z) : Yields P (m >>= f) Z :=
  fun s hs => hf (m.run s).1 (m.run s).2 (hm s hs)

theorem Yields.weaken {m : StateM σ α} {Q Q' : α → σ → Prop} (hm : Yields P m Q)
    (hP : ∀ s, R s → P s) (hQ : ∀ a s, Q a s → Q' a s) : Yields R m Q' :=
  fun s hs => hQ _ _ (hm s (hP s hs))

/-- A computation whose failure is caught: what follows is specified for each way it ends. -/
theorem Spec.caught {m : ExceptT ε (StateM σ) α} {f : Except ε α → StateM σ β}
    {Z : β → σ → Prop} (hm : Spec P m Q E) (hok : ∀ a, Yields (Q a) (f (.ok a)) Z)
    (herror : ∀ e, Yields (E e) (f (.error e)) Z) : Yields P (m.run >>= f) Z := by
  intro s hs
  have hmid := hm s hs
  rw [run_caught]
  rcases hout : outcome m s with ⟨result, s'⟩
  rw [hout] at hmid
  cases result with
  | error e => exact herror e s' hmid
  | ok a => exact hok a s' hmid

end Fallible
