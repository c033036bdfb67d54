/-!
# Expressions

The abstract syntax of a small call-by-value ML with integers, booleans, functions and an `error`
value. Variables may be written by name, or without names as an index that counts binders outwards
from 1; a binder that is never named is written with a dot.
-/

namespace ErrorML

inductive Operator where
  | plus
  | minus
  | times
  | less
deriving DecidableEq

inductive Expr where
  | int (n : Int64)
  | bool (b : Bool)
  | error
  | var (name : String)
  | index (index : Nat)
  | binary (op : Operator) (left right : Expr)
  | ite (condition thenBranch elseBranch : Expr)
  | letIn (name : String) (bound body : Expr)
  /-- A recursive definition. Only a function may be bound, which evaluation checks. -/
  | letRec (name : String) (bound body : Expr)
  | fn (param : String) (body : Expr)
  | app (function argument : Expr)
deriving DecidableEq

structure Function where
  param : String
  body : Expr
deriving DecidableEq

def Function.expr (f : Function) : Expr := .fn f.param f.body

end ErrorML
