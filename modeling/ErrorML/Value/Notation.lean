import ErrorML.Value.Text

namespace ErrorML

def hexadecimal (n : Nat) : String :=
  String.ofList (Nat.toDigits 16 n)

def escaped (c : Char) : String :=
  match c with
  | '\x00' => "\\0"
  | '\t' => "\\t"
  | '\n' => "\\n"
  | '\r' => "\\r"
  | '"' => "\\\""
  | '\\' => "\\\\"
  | c =>
    if c.toNat < 32 ∨ c.toNat = 127 then "\\u\x7b" ++ hexadecimal c.toNat ++ "\x7d"
    else c.toString

def quoted (text : String) : String :=
  "\"" ++ String.join (text.toList.map escaped) ++ "\""

def labelled (constructor : String) (fields : List (String × String)) : String :=
  constructor ++ " \x7b "
    ++ ", ".intercalate (fields.map fun (label, field) => label ++ ": " ++ field) ++ " \x7d"

def applied (constructor field : String) : String :=
  constructor ++ "(" ++ field ++ ")"

def functionForm (param body : String) : String :=
  labelled "Function" [("param", quoted param), ("body", body)]

def Expr.form : Expr → String
  | .int n => applied "Int" (integerText n)
  | .bool b => applied "Bool" (booleanText b)
  | .error => "Error"
  | .var name => applied "Var" (quoted name)
  | .index i => applied "Index" (toString i)
  | .binary op left right =>
    labelled "BinOp" [("op", op.name), ("left", left.form), ("right", right.form)]
  | .ite condition thenBranch elseBranch =>
    labelled "If" [("condition", condition.form), ("then_branch", thenBranch.form),
      ("else_branch", elseBranch.form)]
  | .letIn name bound body =>
    labelled "Let" [("name", quoted name), ("bound", bound.form), ("body", body.form)]
  | .letRec name bound body =>
    labelled "LetRec" [("name", quoted name), ("bound", bound.form), ("body", body.form)]
  | .fn param body => applied "Fun" (functionForm param body.form)
  | .app function argument => labelled "App" [("func", function.form), ("arg", argument.form)]

def Function.form (f : Function) : String := functionForm f.param f.body.form

mutual

def Value.form : Value → String
  | .int n => applied "Int" (integerText n)
  | .bool b => applied "Bool" (booleanText b)
  | .error => "Error"
  | .closure env function =>
    labelled "Closure" [("env", "\x7b" ++ env.entries ++ "\x7d"), ("function", function.form)]
  | .recClosure env name function =>
    labelled "RecClosure" [("env", "\x7b" ++ env.entries ++ "\x7d"), ("name", quoted name),
      ("function", function.form)]

def Env.entries : Env → String
  | .empty => ""
  | .push .empty name value => quoted name ++ ": " ++ value.form
  | .push env name value => env.entries ++ ", " ++ quoted name ++ ": " ++ value.form

end

def Env.form (env : Env) : String := "\x7b" ++ env.entries ++ "\x7d"

end ErrorML
