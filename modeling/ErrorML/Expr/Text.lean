import ErrorML.Expr.Basic

namespace ErrorML

def integerText (n : Int64) : String :=
  toString n.toInt

def booleanText (b : Bool) : String :=
  if b then "true" else "false"

namespace Operator

def symbol : Operator → String
  | .plus => "+"
  | .minus => "-"
  | .times => "*"
  | .less => "<"

def name : Operator → String
  | .plus => "Plus"
  | .minus => "Minus"
  | .times => "Times"
  | .less => "Lt"

def strength : Operator → Nat
  | .less => 1
  | .plus | .minus => 2
  | .times => 3

end Operator

namespace Expr

/-- How strongly a form holds together. Forms that begin with a keyword reach as far as they can and
are the weakest; a negative number is weaker than an argument may be. -/
def strength : Expr → Nat
  | .int n => if n.toInt < 0 then 5 else 6
  | .bool _ | .error | .var _ | .index _ => 6
  | .app _ _ => 4
  | .binary op _ _ => op.strength
  | .ite _ _ _ | .letIn _ _ _ | .letRec _ _ _ | .fn _ _ => 0

def wrap (needed : Bool) (inner : String) : String :=
  if needed then "(" ++ inner ++ ")" else inner

/-- The expression in a place that asks for a form of at least the given strength. Operators and
application associate to the left, so a right operand has to be stronger than the operator. -/
def textAt (place : Nat) (e : Expr) : String :=
  wrap (e.strength < place) <|
    match e with
    | .int n => integerText n
    | .bool b => booleanText b
    | .error => "error"
    | .var name => name
    | .index i => "#" ++ toString i
    | .binary op left right =>
      left.textAt op.strength ++ " " ++ op.symbol ++ " " ++ right.textAt (op.strength + 1)
    | .ite condition thenBranch elseBranch =>
      "if " ++ condition.textAt 0 ++ " then " ++ thenBranch.textAt 0 ++ " else " ++
        elseBranch.textAt 0
    | .letIn name bound body => "let " ++ name ++ " = " ++ bound.textAt 0 ++ " in " ++ body.textAt 0
    | .letRec name bound body =>
      "let rec " ++ name ++ " = " ++ bound.textAt 0 ++ " in " ++ body.textAt 0
    | .fn param body => "fun " ++ param ++ " -> " ++ body.textAt 0
    | .app function argument => function.textAt 4 ++ " " ++ argument.textAt 6

def text (e : Expr) : String := e.textAt 0

section Equations

variable (name : String) (op : Operator) (left right condition thenBranch elseBranch : Expr)
  (bound body function argument : Expr)

theorem text_index (i : Nat) : (index i).text = "#" ++ toString i := by
  simp [text, textAt, wrap]

theorem text_binary :
    (binary op left right).text =
      left.textAt op.strength ++ " " ++ op.symbol ++ " " ++ right.textAt (op.strength + 1) := by
  simp [text, textAt, wrap]

theorem text_ite :
    (ite condition thenBranch elseBranch).text =
      "if " ++ condition.text ++ " then " ++ thenBranch.text ++ " else " ++ elseBranch.text := rfl

theorem text_letIn :
    (letIn name bound body).text =
      "let " ++ name ++ " = " ++ bound.text ++ " in " ++ body.text := rfl

theorem text_letRec :
    (letRec name bound body).text =
      "let rec " ++ name ++ " = " ++ bound.text ++ " in " ++ body.text := rfl

theorem text_fn : (fn name body).text = "fun " ++ name ++ " -> " ++ body.text := rfl

theorem text_app :
    (app function argument).text = function.textAt 4 ++ " " ++ argument.textAt 6 := by
  simp [text, textAt, wrap]

end Equations

theorem textAt_of_le {e : Expr} {place : Nat} (h : place ≤ e.strength) :
    e.textAt place = e.text := by
  have bare : decide (e.strength < place) = false := by simpa using h
  cases e <;> simp only [text, textAt, wrap, bare, Nat.not_lt_zero, decide_false]

theorem textAt_of_lt {e : Expr} {place : Nat} (h : e.strength < place) :
    e.textAt place = "(" ++ e.text ++ ")" := by
  have wrapped : decide (e.strength < place) = true := by simpa using h
  cases e <;> simp [text, textAt, wrap, wrapped]

end Expr

def Function.text (f : Function) : String := f.expr.text

end ErrorML
