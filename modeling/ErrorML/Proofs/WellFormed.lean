import ErrorML.Grammar.Token
import ErrorML.Judgment

namespace ErrorML

open Grammar

def isBinder (name : String) : Bool := isIdentifier name || name == anonymousBinder

namespace Expr

/-- Variables and binders have names of their kind, and indices count from 1. -/
def WellFormed : Expr → Prop
  | .int _ | .bool _ | .error => True
  | .var name => isIdentifier name = true
  | .index i => 1 ≤ i ∧ i ≤ maxWord
  | .binary _ left right => left.WellFormed ∧ right.WellFormed
  | .ite condition thenBranch elseBranch =>
    condition.WellFormed ∧ thenBranch.WellFormed ∧ elseBranch.WellFormed
  | .letIn name bound body | .letRec name bound body =>
    isBinder name = true ∧ bound.WellFormed ∧ body.WellFormed
  | .fn param body => isBinder param = true ∧ body.WellFormed
  | .app function argument => function.WellFormed ∧ argument.WellFormed

instance decidableWellFormed : (e : Expr) → Decidable e.WellFormed
  | .int _ | .bool _ | .error => isTrue trivial
  | .var name => inferInstanceAs (Decidable (isIdentifier name = true))
  | .index i => inferInstanceAs (Decidable (1 ≤ i ∧ i ≤ maxWord))
  | .binary _ left right =>
    @instDecidableAnd _ _ (decidableWellFormed left) (decidableWellFormed right)
  | .ite condition thenBranch elseBranch =>
    @instDecidableAnd _ _ (decidableWellFormed condition)
      (@instDecidableAnd _ _ (decidableWellFormed thenBranch) (decidableWellFormed elseBranch))
  | .letIn _ bound body | .letRec _ bound body =>
    @instDecidableAnd _ _ inferInstance
      (@instDecidableAnd _ _ (decidableWellFormed bound) (decidableWellFormed body))
  | .fn _ body => @instDecidableAnd _ _ inferInstance (decidableWellFormed body)
  | .app function argument =>
    @instDecidableAnd _ _ (decidableWellFormed function) (decidableWellFormed argument)

end Expr

def Function.WellFormed (f : Function) : Prop := f.expr.WellFormed

instance (f : Function) : Decidable f.WellFormed :=
  inferInstanceAs (Decidable f.expr.WellFormed)

mutual

def Value.WellFormed : Value → Prop
  | .int _ | .bool _ | .error => True
  | .closure env function => env.WellFormed ∧ function.WellFormed
  | .recClosure env name function =>
    env.WellFormed ∧ isBinder name = true ∧ function.WellFormed

def Env.WellFormed : Env → Prop
  | .empty => True
  | .push env name value => env.WellFormed ∧ isIdentifier name = true ∧ value.WellFormed

end

mutual

instance Value.decidableWellFormed : (v : Value) → Decidable v.WellFormed
  | .int _ | .bool _ | .error => isTrue (by simp only [Value.WellFormed])
  | .closure env function =>
    have := Env.decidableWellFormed env
    decidable_of_iff (env.WellFormed ∧ function.WellFormed) (by rw [Value.WellFormed])
  | .recClosure env name function =>
    have := Env.decidableWellFormed env
    decidable_of_iff (env.WellFormed ∧ isBinder name = true ∧ function.WellFormed)
      (by rw [Value.WellFormed])

instance Env.decidableWellFormed : (env : Env) → Decidable env.WellFormed
  | .empty => isTrue (by simp only [Env.WellFormed])
  | .push env name value =>
    have := Env.decidableWellFormed env
    have := Value.decidableWellFormed value
    decidable_of_iff (env.WellFormed ∧ isIdentifier name = true ∧ value.WellFormed)
      (by rw [Env.WellFormed])

end

structure Judgment.WellFormed (j : Judgment) : Prop where
  env : ∀ env ∈ j.env, env.WellFormed
  expr : j.expr.WellFormed
  value : j.value.WellFormed

end ErrorML
