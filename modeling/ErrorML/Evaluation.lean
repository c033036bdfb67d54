import ErrorML.Arithmetic
import ErrorML.Derivation.Rule
import ErrorML.Outcome
import ErrorML.Stuck

namespace ErrorML

inductive EvalError where
  | operand (op : Operator) (fault : Fault) (left right : Value)
  | conditionNotBool (condition : Value)
  | conditionError
  | stuck (reason : Stuck)
deriving DecidableEq

namespace EvalError

def message : EvalError → String
  | .operand op fault left right =>
    "operands of '" ++ op.symbol ++ "' are ill-typed (" ++ fault.suffix ++ "): " ++ left.text ++ " "
      ++ op.symbol ++ " " ++ right.text
  | .conditionNotBool condition =>
    "condition evaluated to " ++ condition.text ++ ", expected a boolean"
  | .conditionError => "condition evaluated to error"
  | .stuck reason => reason.message

def rule? : EvalError → Option Rule
  | .operand op fault _ _ => some (.operand op fault)
  | .conditionNotBool _ => some .ifInt
  | .conditionError => some .ifError
  | .stuck _ => none

def bothIllTyped : EvalError → Bool
  | .operand _ _ left right => left.asInt?.isNone && right.asInt?.isNone
  | _ => false

end EvalError

/-- The environment in which the body of a closure runs, and the body. A closure that may call
itself is bound to its name below the parameter. -/
def Value.enter? (callee argument : Value) : Option (Env × Expr) :=
  match callee with
  | .closure env function => some (env.push function.param argument, function.body)
  | .recClosure env name function =>
    some ((env.push name callee).push function.param argument, function.body)
  | _ => none

def applyOperator (op : Operator) (left right : Value) : Except EvalError Value :=
  match Fault.classify? left right with
  | some fault => .error (.operand op fault left right)
  | none =>
    match left, right with
    | .int m, .int n =>
      match Fact.compute? op m n with
      | some fact => .ok fact.value
      | none => .error (.stuck (.overflow op m n))
    | _, _ => .error (.stuck (.closureOperand op))

/-- The value of an expression, with calls nested at most `bound` deep. -/
def evaluate : Nat → Env → Expr → Outcome EvalError Value
  | 0, _, _ => .exhausted
  | bound + 1, env, e =>
    match e with
    | .int n => .ok (.int n)
    | .bool b => .ok (.bool b)
    | .error => .ok .error
    | .var name =>
      match env.lookup? name with
      | some value => .ok value
      | none => .error (.stuck (.unbound name))
    | .index index =>
      match env.nth? index with
      | some value => .ok value
      | none => .error (.stuck (.indexOutOfRange index env.depth))
    | .binary op left right => do
      let leftValue ← evaluate bound env left
      let rightValue ← evaluate bound env right
      .ofExcept (applyOperator op leftValue rightValue)
    | .ite condition thenBranch elseBranch => do
      match ← evaluate bound env condition with
      | .bool true => evaluate bound env thenBranch
      | .bool false => evaluate bound env elseBranch
      | .error => .error .conditionError
      | value => .error (.conditionNotBool value)
    | .letIn name definition body => do
      let value ← evaluate bound env definition
      evaluate bound (env.push name value) body
    | .letRec name definition body =>
      match definition with
      | .fn param functionBody =>
        evaluate bound (env.push name (.recClosure env name ⟨param, functionBody⟩)) body
      | _ => .error (.stuck (.letRecNotFunction definition))
    | .fn param body => .ok (.closure env ⟨param, body⟩)
    | .app function argument => do
      let callee ← evaluate bound env function
      let value ← evaluate bound env argument
      match callee.enter? value with
      | some (bodyEnv, body) => evaluate bound bodyEnv body
      | none => .error (.stuck (.notFunction callee))

theorem evaluate_var (bound : Nat) (env : Env) (name : String) :
    evaluate (bound + 1) env (.var name) =
      (env.lookup? name).elim (.error (.stuck (.unbound name))) .ok := by
  rw [evaluate]
  cases env.lookup? name <;> rfl

theorem evaluate_index (bound : Nat) (env : Env) (index : Nat) :
    evaluate (bound + 1) env (.index index) =
      (env.nth? index).elim (.error (.stuck (.indexOutOfRange index env.depth))) .ok := by
  rw [evaluate]
  cases env.nth? index <;> rfl

theorem evaluate_binary {bound : Nat} {env : Env} {op : Operator} {left right : Expr}
    {v₁ v₂ : Value} (first : evaluate bound env left = .ok v₁)
    (second : evaluate bound env right = .ok v₂) :
    evaluate (bound + 1) env (.binary op left right) = .ofExcept (applyOperator op v₁ v₂) := by
  rw [evaluate, first, second, Outcome.ok_bind, Outcome.ok_bind]

theorem evaluate_succ (bound : Nat) (env : Env) (e : Expr) :
    (evaluate (bound + 1) env e).Extends (evaluate bound env e) := by
  induction bound generalizing env e with
  | zero => exact .of_exhausted _
  | succ bound ih =>
    cases e with
    | binary op left right =>
      exact (ih env left).bind fun _ => (ih env right).bind fun _ => .refl _
    | ite condition thenBranch elseBranch =>
      refine (ih env condition).bind fun value => ?_
      split
      · exact ih env thenBranch
      · exact ih env elseBranch
      all_goals exact .refl _
    | letIn name definition body =>
      exact (ih env definition).bind fun value => ih (env.push name value) body
    | letRec name definition body =>
      cases definition with
      | fn param functionBody => exact ih _ body
      | _ => exact .refl _
    | app function argument =>
      refine (ih env function).bind fun callee => (ih env argument).bind fun value => ?_
      split
      · exact ih _ _
      · exact .refl _
    | _ => exact .refl _

theorem evaluate_mono {bound larger : Nat} (h : bound ≤ larger) (env : Env) (e : Expr) :
    (evaluate larger env e).Extends (evaluate bound env e) := by
  induction h with
  | refl => exact .refl _
  | step _ ih => exact (evaluate_succ _ env e).trans ih

end ErrorML
