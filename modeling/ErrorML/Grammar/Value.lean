import ErrorML.Grammar.Expr
import ErrorML.Value.Basic

namespace ErrorML.Grammar

open ErrorML.Parser

def binding (value : Parser Value) : Parser (String × Value) :=
  ((Sequence.of fun name _ value => (name, value))
    |>.next identifier
    |>.next (symbol "=")
    |>.next value).parser

def bindings (value : Parser Value) : Parser Env :=
  (optional ((Sequence.of List.cons)
    |>.next (binding value)
    |>.next (many ((symbol ",").skipThen (binding value)))).parser).map
    fun found => Env.ofList (found.getD [])

def captured (value : Parser Value) : Parser Env :=
  between (symbol "(") (bindings value) (symbol ")")

def closure (value : Parser Value) : Parser Value :=
  ((Sequence.of fun env _ function _ => Value.closure env function)
    |>.next (captured value)
    |>.next (symbol "[")
    |>.next (functionLiteral expression)
    |>.next (symbol "]")).parser

def recClosure (value : Parser Value) : Parser Value :=
  ((Sequence.of fun env _ _ name _ function _ => Value.recClosure env name function)
    |>.next (captured value)
    |>.next (symbol "[")
    |>.next (keyword "rec")
    |>.next binder
    |>.next (symbol "=")
    |>.next (functionLiteral expression)
    |>.next (symbol "]")).parser

def valueForms (value : Parser Value) : Parser Value :=
  firstOf
    [(integer true).map .int,
      boolean.map .bool,
      (keyword "error").map fun _ => .error,
      closure value,
      recClosure value]

def value : Parser Value := fix valueForms

def environment : Parser Env := bindings value

theorem value_eq (input : List Char) :
    value input = valueForms (shorterThan input value) input :=
  fix_eq valueForms input

end ErrorML.Grammar
