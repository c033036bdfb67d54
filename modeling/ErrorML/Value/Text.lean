import ErrorML.Expr.Text
import ErrorML.Value.Basic

namespace ErrorML

mutual

def Value.text : Value → String
  | .int n => integerText n
  | .bool b => booleanText b
  | .error => "error"
  | .closure env function => "(" ++ env.text ++ ")[" ++ function.text ++ "]"
  | .recClosure env name function =>
    "(" ++ env.text ++ ")[rec " ++ name ++ " = " ++ function.text ++ "]"

def Env.text : Env → String
  | .empty => ""
  | .push .empty name value => name ++ "=" ++ value.text
  | .push env name value => env.text ++ "," ++ name ++ "=" ++ value.text

end

namespace Env

@[simp] theorem text_empty : empty.text = "" := by
  simp [text]

theorem text_push_empty (name : String) (value : Value) :
    (empty.push name value).text = name ++ "=" ++ value.text := by
  simp [text]

theorem text_push_push (env : Env) (older name : String) (oldValue value : Value) :
    ((env.push older oldValue).push name value).text =
      (env.push older oldValue).text ++ "," ++ name ++ "=" ++ value.text := by
  conv => lhs; unfold text

end Env

end ErrorML
