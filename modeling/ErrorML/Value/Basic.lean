import ErrorML.Expr.Basic

namespace ErrorML

mutual

inductive Value where
  | int (n : Int64)
  | bool (b : Bool)
  | error
  | closure (env : Env) (function : Function)
  | recClosure (env : Env) (name : String) (function : Function)
deriving DecidableEq

inductive Env where
  | empty
  | push (env : Env) (name : String) (value : Value)
deriving DecidableEq

end

def Value.asInt? : Value → Option Int64
  | .int n => some n
  | _ => none

theorem Value.asInt?_int (n : Int64) : (int n).asInt? = some n := rfl

def Value.isClosure : Value → Bool
  | .closure _ _ | .recClosure _ _ _ => true
  | _ => false

namespace Env

instance : Inhabited Env := ⟨.empty⟩

def toList : Env → List (String × Value)
  | .empty => []
  | .push env name value => (name, value) :: env.toList

def ofList (bindings : List (String × Value)) : Env :=
  bindings.foldl (fun env binding => env.push binding.1 binding.2) .empty

def depth : Env → Nat
  | .empty => 0
  | .push env _ _ => env.depth + 1

def isEmpty : Env → Bool
  | .empty => true
  | .push _ _ _ => false

def pop? : Env → Option Env
  | .empty => none
  | .push env _ _ => some env

def top? : Env → Option (String × Value)
  | .empty => none
  | .push _ name value => some (name, value)

def lookup? (name : String) : Env → Option Value
  | .empty => none
  | .push env bound value => if bound = name then some value else env.lookup? name

/-- The value of the `index`-th newest binding, counted from 1. -/
def nth? : Env → Nat → Option Value
  | .empty, _ => none
  | .push _ _ _, 0 => none
  | .push _ _ value, 1 => some value
  | .push env _ _, index + 2 => env.nth? (index + 1)

@[elab_as_elim, induction_eliminator]
theorem induction {motive : Env → Prop} (empty : motive .empty)
    (push : ∀ env name value, motive env → motive (.push env name value)) :
    (env : Env) → motive env
  | .empty => empty
  | .push env name value => push env name value (induction empty push env)

@[simp] theorem lookup?_empty (name : String) : empty.lookup? name = none := rfl

theorem lookup?_push (env : Env) (bound name : String) (value : Value) :
    (env.push bound value).lookup? name = if bound = name then some value else env.lookup? name :=
  rfl

@[simp] theorem nth?_zero (env : Env) : env.nth? 0 = none := by
  cases env <;> rfl

@[simp] theorem nth?_push_one (env : Env) (bound : String) (value : Value) :
    (env.push bound value).nth? 1 = some value := rfl

theorem nth?_push (env : Env) (bound : String) (value : Value) (index : Nat) :
    (env.push bound value).nth? (index + 2) = env.nth? (index + 1) := rfl

theorem nth?_eq (env : Env) (index : Nat) :
    env.nth? (index + 1) = env.toList[index]?.map Prod.snd := by
  cases env with
  | empty => simp [nth?, toList]
  | push env bound value =>
    cases index with
    | zero => simp [toList]
    | succ index => rw [nth?_push, nth?_eq env index]; simp [toList]

@[simp] theorem length_toList : (env : Env) → env.toList.length = env.depth
  | .empty => rfl
  | .push env _ _ => by simp [toList, depth, length_toList env]

private theorem toList_foldl (bindings : List (String × Value)) (env : Env) :
    (bindings.foldl (fun env binding => env.push binding.1 binding.2) env).toList =
      bindings.reverse ++ env.toList := by
  induction bindings generalizing env with
  | nil => rfl
  | cons binding bindings ih => simp [ih, toList]

@[simp] theorem toList_ofList (bindings : List (String × Value)) :
    (ofList bindings).toList = bindings.reverse := by
  simp [ofList, toList_foldl, toList]

end Env

end ErrorML
