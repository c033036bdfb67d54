import ErrorML.Value.Text

namespace ErrorML

structure Judgment where
  /-- The environment, or none where there is no turnstile. -/
  env : Option Env
  expr : Expr
  value : Value
deriving DecidableEq

def turnstileText : Option Env → String
  | none => ""
  | some .empty => "|- "
  | some env => env.text ++ " |- "

def Judgment.text (j : Judgment) : String :=
  turnstileText j.env ++ j.expr.text ++ " evalto " ++ j.value.text

structure Request where
  env : Option Env
  expr : Expr
deriving DecidableEq

end ErrorML
