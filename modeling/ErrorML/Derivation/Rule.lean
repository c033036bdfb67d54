import ErrorML.Expr.Text
import ErrorML.Fault

namespace ErrorML

inductive Rule where
  | int
  | bool
  | error
  | fn
  | index
  | varTop
  | varBelow
  | letIn
  | letRec
  | app
  | appRec
  | operator (op : Operator)
  | operand (op : Operator) (fault : Fault)
  | ifTrue
  | ifFalse
  | ifTrueError
  | ifFalseError
  | ifError
  | ifInt
deriving DecidableEq

def Rule.name : Rule → String
  | .int => "E-Int"
  | .bool => "E-Bool"
  | .error => "E-Error"
  | .fn => "E-Fun"
  | .index => "E-Var"
  | .varTop => "E-Var1"
  | .varBelow => "E-Var2"
  | .letIn => "E-Let"
  | .letRec => "E-LetRec"
  | .app => "E-App"
  | .appRec => "E-AppRec"
  | .operator op => "E-" ++ op.name
  | .operand op fault => "E-" ++ op.name ++ fault.suffix
  | .ifTrue => "E-IfT"
  | .ifFalse => "E-IfF"
  | .ifTrueError => "E-IfTError"
  | .ifFalseError => "E-IfFError"
  | .ifError => "E-IfError"
  | .ifInt => "E-IfInt"

end ErrorML
