import ErrorML.Grammar.Source
import ErrorML.Inference

namespace ErrorML

inductive CheckError where
  | malformed (error : SourceError)
  | wrongValue (expected actual : Judgment)
  | notDerivable (judgment : Judgment) (reason : InferError)
  | evaluation (error : EvalError)
  | inference (error : InferError)
deriving DecidableEq

namespace CheckError

inductive Kind where
  | parse
  | ruleViolation
deriving DecidableEq

def kind : CheckError → Kind
  | .malformed _ => .parse
  | _ => .ruleViolation

def message : CheckError → String
  | .malformed error => error.message
  | .wrongValue expected actual =>
    "judgment is not derivable (expected: " ++ expected.text ++ ", actual: " ++ actual.text
      ++ "; fix: replace value with " ++ expected.value.text ++ ")"
  | .notDerivable judgment reason =>
    "judgment is not derivable (actual: " ++ judgment.text ++ "; " ++ reason.message ++ ")"
  | .evaluation error => error.message
  | .inference error => error.message

def position? : CheckError → Option Position
  | .malformed error => error.position?
  | _ => none

def text (error : CheckError) : String :=
  match error.position? with
  | none => error.message
  | some position => error.message ++ " at " ++ position.text

end CheckError

inductive Mode where
  | strict
  /-- Ill-typed operands and conditions give the value `error`. -/
  | errorValues
deriving DecidableEq

namespace Mode

instance : Inhabited Mode := ⟨.strict⟩

def name : Mode → String
  | .strict => "strict"
  | .errorValues => "error-values"

def ofName? (name : String) : Option Mode :=
  [strict, errorValues].find? fun mode => mode.name = name

theorem ofName?_name (mode : Mode) : ofName? mode.name = some mode := by
  cases mode <;> decide

end Mode

def Judgment.style (j : Judgment) : Style :=
  match j.env with
  | none => .bare
  | some _ => .turnstile

def proveJudgment (bound : Nat) (j : Judgment) : Outcome CheckError (Derivation Rule) :=
  match infer bound j.style (j.env.getD .empty) j.expr with
  | .ok d =>
    if d.value = j.value then .ok d
    else .error (.wrongValue d.conclusion j)
  | .error reason => .error (.notDerivable j reason)
  | .exhausted => .exhausted

def prove (bound : Nat) (source : String) : Outcome CheckError String := do
  let j ← (Outcome.ofExcept (Judgment.parse source)).mapError .malformed
  let d ← proveJudgment bound j
  return d.text Rule.name

def answer (bound : Nat) (mode : Mode) (env : Env) (e : Expr) : Outcome CheckError Value :=
  match mode with
  | .strict => (evaluate bound env e).mapError .evaluation
  | .errorValues => do
    let d ← (infer bound .turnstile env e).mapError .inference
    return d.value

def eval (bound : Nat) (mode : Mode) (source : String) : Outcome CheckError Value := do
  let r ← (Outcome.ofExcept (Request.parse source)).mapError .malformed
  answer bound mode (r.env.getD .empty) r.expr

theorem proveJudgment_ok {bound : Nat} {j : Judgment} {d : Derivation Rule} :
    proveJudgment bound j = .ok d ↔
      infer bound j.style (j.env.getD .empty) j.expr = .ok d ∧ d.value = j.value := by
  unfold proveJudgment
  split
  next d' h =>
    by_cases same : d'.value = j.value
    · rw [if_pos same, h, Outcome.ok.injEq, Outcome.ok.injEq]
      exact ⟨fun eq => ⟨eq, eq ▸ same⟩, fun eq => eq.1⟩
    · rw [if_neg same, h, Outcome.ok.injEq]
      exact ⟨fun eq => (nomatch eq), fun ⟨eq, value⟩ => absurd (eq ▸ value) same⟩
  next h => simp [h]
  next h => simp [h]

end ErrorML
