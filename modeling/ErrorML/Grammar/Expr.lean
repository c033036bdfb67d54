import ErrorML.Grammar.Token

namespace ErrorML.Grammar

open ErrorML.Parser

def parenthesized (expression : Parser Expr) : Parser Expr :=
  between (symbol "(") expression (symbol ")")

/-- The least forms, which need no parentheses as an argument; `signed` admits signed numbers. -/
def operand (signed : Bool) (expression : Parser Expr) : Parser Expr :=
  firstOf
    [parenthesized expression,
      (integer signed).map .int,
      boolean.map .bool,
      (keyword "error").map fun _ => .error,
      index.map .index,
      identifier.map .var]

def application (expression : Parser Expr) : Parser Expr :=
  ((Sequence.of fun (head : Expr) (arguments : List Expr) => arguments.foldl Expr.app head)
    |>.next (operand true expression)
    |>.next (many (operand false expression))).parser

def leftChain (operand : Parser Expr) (operator : Parser Operator) : Parser Expr :=
  ((Sequence.of fun (first : Expr) (rest : List (Operator × Expr)) =>
      rest.foldl (fun left (op, right) => .binary op left right) first)
    |>.next operand
    |>.next (many ((Sequence.of Prod.mk).next operator |>.next operand).parser)).parser

def product (expression : Parser Expr) : Parser Expr :=
  leftChain (application expression) ((symbol "*").map fun _ => .times)

def sum (expression : Parser Expr) : Parser Expr :=
  leftChain (product expression)
    (firstOf [(symbol "+").map fun _ => .plus, (symbol "-").map fun _ => .minus])

def comparison (expression : Parser Expr) : Parser Expr :=
  leftChain (sum expression) ((symbol "<").map fun _ => .less)

def letIn (expression : Parser Expr) : Parser Expr :=
  ((Sequence.of fun _ name _ bound _ body => Expr.letIn name bound body)
    |>.next (keyword "let")
    |>.next binder
    |>.next (symbol "=")
    |>.next expression
    |>.next (keyword "in")
    |>.next expression).parser

def letRecIn (expression : Parser Expr) : Parser Expr :=
  ((Sequence.of fun _ _ name _ bound _ body => Expr.letRec name bound body)
    |>.next (keyword "let")
    |>.next (keyword "rec")
    |>.next binder
    |>.next (symbol "=")
    |>.next expression
    |>.next (keyword "in")
    |>.next expression).parser

def functionLiteral (expression : Parser Expr) : Parser Function :=
  ((Sequence.of fun _ param _ body => Function.mk param body)
    |>.next (keyword "fun")
    |>.next binder
    |>.next (symbol "->")
    |>.next expression).parser

def conditional (expression : Parser Expr) : Parser Expr :=
  ((Sequence.of fun _ condition _ thenBranch _ elseBranch =>
      Expr.ite condition thenBranch elseBranch)
    |>.next (keyword "if")
    |>.next expression
    |>.next (keyword "then")
    |>.next expression
    |>.next (keyword "else")
    |>.next expression).parser

def expressionForms (expression : Parser Expr) : Parser Expr :=
  firstOf
    [letIn expression,
      letRecIn expression,
      (functionLiteral expression).map Function.expr,
      conditional expression,
      comparison expression]

def expression : Parser Expr := fix expressionForms

theorem expression_eq (input : List Char) :
    expression input = expressionForms (shorterThan input expression) input :=
  fix_eq expressionForms input

end ErrorML.Grammar
