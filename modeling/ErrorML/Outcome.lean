/-!
# Runs with a bound

Programs need not come to an end. A run is therefore given a bound on the depth of its calls, and
ends with a result, with an error, or without either because the bound was too small.
-/

namespace ErrorML

inductive Outcome (ε α : Type) where
  | ok (value : α)
  | error (error : ε)
  | exhausted
deriving DecidableEq

namespace Outcome

variable {ε δ α β : Type}

protected def bind (run : Outcome ε α) (next : α → Outcome ε β) : Outcome ε β :=
  match run with
  | .ok value => next value
  | .error e => .error e
  | .exhausted => .exhausted

instance : Monad (Outcome ε) where
  pure := .ok
  bind := .bind

def ofExcept : Except ε α → Outcome ε α
  | .ok value => .ok value
  | .error e => .error e

def mapError (f : ε → δ) : Outcome ε α → Outcome δ α
  | .ok value => .ok value
  | .error e => .error (f e)
  | .exhausted => .exhausted

@[simp] theorem ok_bind (value : α) (next : α → Outcome ε β) : (ok value >>= next) = next value :=
  rfl

@[simp] theorem error_bind (e : ε) (next : α → Outcome ε β) : (error e >>= next) = error e :=
  rfl

@[simp] theorem exhausted_bind (next : α → Outcome ε β) : (exhausted >>= next) = exhausted :=
  rfl

@[simp] theorem pure_eq_ok (value : α) : (pure value : Outcome ε α) = ok value := rfl

@[simp] theorem map_ok (f : α → β) (value : α) : f <$> (ok value : Outcome ε α) = ok (f value) :=
  rfl

@[simp] theorem map_error (f : α → β) (e : ε) : f <$> (error e : Outcome ε α) = error e := rfl

theorem map_bind_map {γ δ : Type} {f : α → β} {g : γ → δ} {run : Outcome ε α}
    {next : α → Outcome ε γ} {next' : β → Outcome ε δ}
    (h : ∀ value, next' (f value) = g <$> next value) :
    (f <$> run >>= next') = g <$> (run >>= next) := by
  cases run with
  | ok value => exact h value
  | error e => rfl
  | exhausted => rfl

theorem bind_eq_ok {run : Outcome ε α} {next : α → Outcome ε β} {result : β} :
    (run >>= next) = ok result ↔ ∃ value, run = ok value ∧ next value = ok result := by
  cases run <;> simp

theorem ofExcept_eq_ok {result : Except ε α} {value : α} :
    ofExcept result = ok value ↔ result = .ok value := by
  cases result <;> simp [ofExcept]

theorem ofExcept_eq_error {result : Except ε α} {e : ε} :
    ofExcept result = error e ↔ result = .error e := by
  cases result <;> simp [ofExcept]

theorem mapError_eq_ok {f : ε → δ} {run : Outcome ε α} {value : α} :
    run.mapError f = ok value ↔ run = ok value := by
  cases run <;> simp [mapError]

/-! ## Larger bounds -/

/-- `later` is what `run` may become under a larger bound: the same, unless `run` was cut off. -/
def Extends (later run : Outcome ε α) : Prop :=
  run = exhausted ∨ later = run

namespace Extends

theorem refl (run : Outcome ε α) : Extends run run := .inr rfl

theorem of_exhausted (later : Outcome ε α) : Extends later exhausted := .inl rfl

theorem trans {first second third : Outcome ε α} (h : Extends third second)
    (h' : Extends second first) : Extends third first := by
  rcases h' with h' | rfl
  · exact .inl h'
  · exact h

theorem eq_ok {later run : Outcome ε α} {value : α} (h : Extends later run) (ok : run = .ok value) :
    later = .ok value := by
  rcases h with h | h
  · cases h.symm.trans ok
  · exact h.trans ok

theorem eq_error {later run : Outcome ε α} {e : ε} (h : Extends later run)
    (error : run = .error e) : later = .error e := by
  rcases h with h | h
  · cases h.symm.trans error
  · exact h.trans error

theorem bind {later run : Outcome ε α} {laterNext next : α → Outcome ε β}
    (h : Extends later run) (hnext : ∀ value, Extends (laterNext value) (next value)) :
    Extends (later >>= laterNext) (run >>= next) := by
  rcases h with rfl | rfl
  · exact .inl rfl
  · cases later with
    | ok value => exact hnext value
    | error e => exact .refl _
    | exhausted => exact .inl rfl

end Extends

/-! ## Results for all large bounds -/

def Returns (run : Nat → Outcome ε α) (value : α) : Prop :=
  ∃ bound, ∀ larger, bound ≤ larger → run larger = .ok value

namespace Returns

theorem const (value : α) : Returns (fun _ => (.ok value : Outcome ε α)) value :=
  ⟨0, fun _ _ => rfl⟩

theorem of_succ {run : Nat → Outcome ε α} {value : α}
    (h : Returns (fun bound => run (bound + 1)) value) : Returns run value := by
  obtain ⟨bound, h⟩ := h
  refine ⟨bound + 1, fun larger le => ?_⟩
  obtain ⟨less, rfl⟩ : ∃ less, larger = less + 1 := ⟨larger - 1, by omega⟩
  exact h less (by omega)

theorem bind {run : Nat → Outcome ε α} {next : Nat → α → Outcome ε β} {value : α} {result : β}
    (h : Returns run value) (hnext : Returns (fun bound => next bound value) result) :
    Returns (fun bound => run bound >>= next bound) result := by
  obtain ⟨b₁, h⟩ := h
  obtain ⟨b₂, hnext⟩ := hnext
  refine ⟨max b₁ b₂, fun larger le => ?_⟩
  have first := h larger (by omega)
  have second := hnext larger (by omega)
  simp only [first, ok_bind, second]

end Returns

/-! ## Two runs side by side -/

inductive Matches (related : α → β → Prop) : Outcome ε α → Outcome ε β → Prop where
  | ok {value : α} {value' : β} (values : related value value') :
      Matches related (.ok value) (.ok value')
  | error (e e' : ε) : Matches related (.error e) (.error e')
  | exhausted : Matches related .exhausted .exhausted

theorem Matches.of_rel {related : α → β → Prop} {found : Option α} {found' : Option β}
    (h : Option.Rel related found found') (e e' : ε) :
    Matches related (found.elim (.error e) .ok) (found'.elim (.error e') .ok) := by
  cases h with
  | some values => exact .ok values
  | none => exact .error e e'

theorem Matches.bind {γ δ : Type} {related : α → β → Prop} {related' : γ → δ → Prop}
    {run : Outcome ε α} {run' : Outcome ε β} {next : α → Outcome ε γ} {next' : β → Outcome ε δ}
    (h : Matches related run run')
    (hnext : ∀ value value', related value value' → Matches related' (next value) (next' value')) :
    Matches related' (run >>= next) (run' >>= next') := by
  cases h with
  | ok values => exact hnext _ _ values
  | error e e' => exact .error e e'
  | exhausted => exact .exhausted

end Outcome

end ErrorML
