import ErrorML.Expr.Text
import ErrorML.Value.Text

namespace ErrorML

inductive Stuck where
  | unbound (name : String)
  | indexOutOfRange (index depth : Nat)
  | notFunction (value : Value)
  | overflow (op : Operator) (left right : Int64)
  | closureOperand (op : Operator)
  | letRecNotFunction (bound : Expr)
deriving DecidableEq

def Stuck.message : Stuck → String
  | .unbound name => "unbound variable '" ++ name ++ "'"
  | .indexOutOfRange index depth =>
    "index #" ++ toString index ++ " is out of range for an environment of depth " ++
      toString depth
  | .notFunction value => value.text ++ " is not a function"
  | .overflow op left right =>
    "integer overflow in " ++ integerText left ++ " " ++ op.symbol ++ " " ++ integerText right
  | .closureOperand op => "closure used as an operand of '" ++ op.symbol ++ "'"
  | .letRecNotFunction bound => "let rec must bind a function literal, found " ++ bound.text

end ErrorML
