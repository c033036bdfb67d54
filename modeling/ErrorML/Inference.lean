import ErrorML.Derivation.Text
import ErrorML.Evaluation

/-!
# Derivations of programs

The rules of the language turn ill-typed operands and conditions into the value `error`, and `error`
spreads. An expression in an environment has at most one derivation, which is found by running the
expression: a premise that a rule does not ask for is not looked at.
-/

namespace ErrorML

inductive InferError where
  | closureCondition
  | stuck (reason : Stuck)
deriving DecidableEq

def InferError.message : InferError → String
  | .closureCondition => "closure used as an if condition"
  | .stuck reason => reason.message

/-! ## Conclusions -/

/-- How judgments are written that have no binding in their environment. -/
inductive Style where
  | turnstile
  | bare
deriving DecidableEq

def Style.shown : Style → Env → Option Env
  | .bare, .empty => none
  | _, env => some env

def conclude (style : Style) (env : Env) (e : Expr) (value : Value) (rule : Rule)
    (premises : List (Premise Rule)) : Derivation Rule :=
  .node ⟨style.shown env, e, value⟩ rule premises

/-! ## Inference -/

def inferVar (style : Style) (name : String) : Env → Except InferError (Derivation Rule)
  | .empty => .error (.stuck (.unbound name))
  | .push env bound value =>
    if bound = name then .ok (conclude style (env.push bound value) (.var name) value .varTop [])
    else
      match inferVar style name env with
      | .ok below =>
        .ok (conclude style (env.push bound value) (.var name) below.value .varBelow
          [.derivation below])
      | .error e => .error e

def branchRule (taken : Bool) (value : Value) : Rule :=
  match taken, value with
  | true, .error => .ifTrueError
  | true, _ => .ifTrue
  | false, .error => .ifFalseError
  | false, _ => .ifFalse

def applicationRule : Value → Rule
  | .recClosure _ _ _ => .appRec
  | _ => .app

def infer : Nat → Style → Env → Expr → Outcome InferError (Derivation Rule)
  | 0, _, _, _ => .exhausted
  | bound + 1, style, env, e =>
    match e with
    | .int n => .ok (conclude style env e (.int n) .int [])
    | .bool b => .ok (conclude style env e (.bool b) .bool [])
    | .error => .ok (conclude style env e .error .error [])
    | .fn param body => .ok (conclude style env e (.closure env ⟨param, body⟩) .fn [])
    | .var name => .ofExcept (inferVar style name env)
    | .index index =>
      match env.nth? index with
      | some value => .ok (conclude style env e value .index [])
      | none => .error (.stuck (.indexOutOfRange index env.depth))
    | .binary op left right => do
      let leftDerivation ← infer bound style env left
      match Fault.ofLeft? leftDerivation.value, leftDerivation.value.asInt? with
      | some fault, _ =>
        .ok (conclude style env e .error (.operand op fault) [.derivation leftDerivation])
      | none, none => .error (.stuck (.closureOperand op))
      | none, some m => do
        let rightDerivation ← infer bound style env right
        match Fault.ofRight? rightDerivation.value, rightDerivation.value.asInt? with
        | some fault, _ =>
          .ok (conclude style env e .error (.operand op fault) [.derivation rightDerivation])
        | none, none => .error (.stuck (.closureOperand op))
        | none, some n =>
          match Fact.compute? op m n with
          | some fact =>
            .ok (conclude style env e fact.value (.operator op)
              [.derivation leftDerivation, .derivation rightDerivation, .fact fact])
          | none => .error (.stuck (.overflow op m n))
    | .ite condition thenBranch elseBranch => do
      let conditionDerivation ← infer bound style env condition
      match conditionDerivation.value with
      | .bool taken => do
        let branchDerivation ← infer bound style env (if taken then thenBranch else elseBranch)
        .ok (conclude style env e branchDerivation.value (branchRule taken branchDerivation.value)
          [.derivation conditionDerivation, .derivation branchDerivation])
      | .error => .ok (conclude style env e .error .ifError [.derivation conditionDerivation])
      | .int _ => .ok (conclude style env e .error .ifInt [.derivation conditionDerivation])
      | .closure _ _ | .recClosure _ _ _ => .error .closureCondition
    | .letIn name definition body => do
      let definitionDerivation ← infer bound style env definition
      let bodyDerivation ← infer bound style (env.push name definitionDerivation.value) body
      .ok (conclude style env e bodyDerivation.value .letIn
        [.derivation definitionDerivation, .derivation bodyDerivation])
    | .letRec name definition body =>
      match definition with
      | .fn param functionBody => do
        let bodyDerivation ←
          infer bound style (env.push name (.recClosure env name ⟨param, functionBody⟩)) body
        .ok (conclude style env e bodyDerivation.value .letRec [.derivation bodyDerivation])
      | _ => .error (.stuck (.letRecNotFunction definition))
    | .app function argument => do
      let functionDerivation ← infer bound style env function
      let argumentDerivation ← infer bound style env argument
      match functionDerivation.value.enter? argumentDerivation.value with
      | some (bodyEnv, body) => do
        let bodyDerivation ← infer bound style bodyEnv body
        .ok (conclude style env e bodyDerivation.value (applicationRule functionDerivation.value)
          [.derivation functionDerivation, .derivation argumentDerivation,
            .derivation bodyDerivation])
      | none => .error (.stuck (.notFunction functionDerivation.value))

/-! ## Operators -/

theorem infer_binary {bound : Nat} {style : Style} {env : Env} {op : Operator} {left right : Expr}
    {m n : Int64} {d₁ d₂ : Derivation Rule} (first : infer bound style env left = .ok d₁)
    (number : d₁.value = .int m) (second : infer bound style env right = .ok d₂)
    (number' : d₂.value = .int n) :
    infer (bound + 1) style env (.binary op left right) =
      (Fact.compute? op m n).elim (.error (.stuck (.overflow op m n))) fun fact =>
        .ok (conclude style env (.binary op left right) fact.value (.operator op)
          [.derivation d₁, .derivation d₂, .fact fact]) := by
  simp only [infer, first, Outcome.ok_bind, number, Fault.ofLeft?, Value.asInt?_int, second,
    number', Fault.ofRight?]
  cases Fact.compute? op m n <;> rfl

/-! ## Bounds -/

theorem infer_succ (bound : Nat) (style : Style) (env : Env) (e : Expr) :
    (infer (bound + 1) style env e).Extends (infer bound style env e) := by
  induction bound generalizing env e with
  | zero => exact .of_exhausted _
  | succ bound ih =>
    cases e with
    | binary op left right =>
      refine (ih env left).bind fun leftDerivation => ?_
      split
      · exact .refl _
      · exact .refl _
      · exact (ih env right).bind fun _ => .refl _
    | ite condition thenBranch elseBranch =>
      refine (ih env condition).bind fun conditionDerivation => ?_
      split
      · exact (ih env _).bind fun _ => .refl _
      all_goals exact .refl _
    | letIn name definition body =>
      exact (ih env definition).bind fun _ => (ih _ body).bind fun _ => .refl _
    | letRec name definition body =>
      cases definition with
      | fn param functionBody => exact (ih _ body).bind fun _ => .refl _
      | _ => exact .refl _
    | app function argument =>
      refine (ih env function).bind fun _ => (ih env argument).bind fun _ => ?_
      split
      · exact (ih _ _).bind fun _ => .refl _
      · exact .refl _
    | _ => exact .refl _

theorem infer_mono {bound larger : Nat} (h : bound ≤ larger) (style : Style) (env : Env)
    (e : Expr) : (infer larger style env e).Extends (infer bound style env e) := by
  induction h with
  | refl => exact .refl _
  | step _ ih => exact (infer_succ _ style env e).trans ih

end ErrorML
