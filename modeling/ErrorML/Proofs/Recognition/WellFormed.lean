import ErrorML.Proofs.Recognition.Judgment
import ErrorML.Proofs.WellFormed

namespace ErrorML.Grammar

variable {ts : List Token} {k : Nat} {e : Expr} {name : String}

theorem Token.Binds.isBinder {t : Token} (h : t.Binds name) : isBinder name = true := by
  cases h with
  | identifier identifier => rw [ErrorML.isBinder, identifier, Bool.true_or]
  | anonymous => rfl

theorem Sentence.wellFormed (h : Sentence k ts e) : e.WellFormed := by
  induction h with
  | letIn binder _ _ inner outer => exact ⟨binder.isBinder, inner, outer⟩
  | letRec binder _ _ inner outer => exact ⟨binder.isBinder, inner, outer⟩
  | fn binder _ inner => exact ⟨binder.isBinder, inner⟩
  | ite _ _ _ test yes no => exact ⟨test, yes, no⟩
  | binary _ _ _ first second => exact ⟨first, second⟩
  | app _ _ first second => exact ⟨first, second⟩
  | parenthesized _ inner => exact inner
  | index _ positive fits => exact ⟨positive, fits⟩
  | var identifier => exact identifier
  | unit _ inner => exact inner
  | _ => trivial

theorem FunctionSentence.wellFormed {f : Function} (h : FunctionSentence ts f) : f.WellFormed := by
  obtain ⟨binder, inner⟩ := h
  exact ⟨binder.isBinder, inner.wellFormed⟩

mutual

theorem ValueSentence.wellFormed : (v : Value) → ∀ {ts}, ValueSentence ts v → v.WellFormed
  | .int _, _, _ | .bool _, _, _ | .error, _, _ => by simp only [Value.WellFormed]
  | .closure env f, _, h => by
    cases h with
    | closure captured literal =>
      rw [Value.WellFormed]
      exact ⟨EnvSentence.wellFormed env captured, literal.wellFormed⟩
  | .recClosure env name f, _, h => by
    cases h with
    | recClosure captured binder literal =>
      rw [Value.WellFormed]
      exact ⟨EnvSentence.wellFormed env captured, binder.isBinder, literal.wellFormed⟩

theorem EnvSentence.wellFormed : (env : Env) → ∀ {ts}, EnvSentence ts env → env.WellFormed
  | .empty, _, _ => by simp only [Env.WellFormed]
  | .push .empty name v, _, h => by
    cases h with
    | one identifier bound =>
      simp only [Env.WellFormed, true_and]
      exact ⟨identifier, ValueSentence.wellFormed v bound⟩
  | .push (.push env older oldest) name v, _, h => by
    cases h with
    | more before identifier bound =>
      rw [Env.WellFormed]
      exact ⟨EnvSentence.wellFormed _ before, identifier, ValueSentence.wellFormed v bound⟩

end

theorem RequestSentence.wellFormed {r : Request} (h : RequestSentence ts r) :
    (∀ env ∈ r.env, env.WellFormed) ∧ r.expr.WellFormed := by
  cases h with
  | bare expr => exact ⟨by simp, expr.wellFormed⟩
  | turnstile bindings expr =>
    refine ⟨?_, expr.wellFormed⟩
    rintro env ⟨⟩
    exact EnvSentence.wellFormed _ bindings

end ErrorML.Grammar
