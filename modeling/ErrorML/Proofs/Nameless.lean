import ErrorML.Proofs.SideConditions

/-!
# Variables without names

A bound variable may be written as an index that counts binders outwards. The environment in which a
part of a program runs has one binding for each binder around that part, in the same order, so that
an index finds what the name finds. Closures carry their functions with them, which differ in how
they are written; values are therefore compared up to that.
-/

namespace ErrorML

/-! ## Removing names -/

def Env.names : Env → List String
  | .empty => []
  | .push env name _ => name :: env.names

/-- The expression with its bound variables as indices. The scope lists the binders around it, from
the innermost outwards; a recursive definition is in its own scope. -/
def Expr.nameless (scope : List String) : Expr → Expr
  | .int n => .int n
  | .bool b => .bool b
  | .error => .error
  | .var name =>
    match scope.idxOf? name with
    | some position => .index (position + 1)
    | none => .var name
  | .index i => .index i
  | .binary op left right => .binary op (left.nameless scope) (right.nameless scope)
  | .ite condition thenBranch elseBranch =>
    .ite (condition.nameless scope) (thenBranch.nameless scope) (elseBranch.nameless scope)
  | .letIn name bound body =>
    .letIn name (bound.nameless scope) (body.nameless (name :: scope))
  | .letRec name bound body =>
    .letRec name (bound.nameless (name :: scope)) (body.nameless (name :: scope))
  | .fn param body => .fn param (body.nameless (param :: scope))
  | .app function argument => .app (function.nameless scope) (argument.nameless scope)

/-! ## Programs that differ in how variables are written -/

/-- The second expression is the first one with some bound variables written as indices. -/
inductive Expr.Alike : List String → Expr → Expr → Prop where
  | int {scope : List String} (n : Int64) : Alike scope (.int n) (.int n)
  | bool {scope : List String} (b : Bool) : Alike scope (.bool b) (.bool b)
  | error {scope : List String} : Alike scope .error .error
  | var {scope : List String} (name : String) : Alike scope (.var name) (.var name)
  | resolved {scope : List String} {name : String} {position : Nat}
      (bound : scope.idxOf? name = some position) :
      Alike scope (.var name) (.index (position + 1))
  | index {scope : List String} (i : Nat) : Alike scope (.index i) (.index i)
  | binary {scope : List String} (op : Operator) {left left' right right' : Expr}
      (first : Alike scope left left') (second : Alike scope right right') :
      Alike scope (.binary op left right) (.binary op left' right')
  | ite {scope : List String} {condition condition' yes yes' no no' : Expr}
      (test : Alike scope condition condition') (holds : Alike scope yes yes')
      (fails : Alike scope no no') : Alike scope (.ite condition yes no) (.ite condition' yes' no')
  | letIn {scope : List String} (name : String) {bound bound' body body' : Expr}
      (definition : Alike scope bound bound') (result : Alike (name :: scope) body body') :
      Alike scope (.letIn name bound body) (.letIn name bound' body')
  | letRec {scope : List String} (name : String) {bound bound' body body' : Expr}
      (definition : Alike (name :: scope) bound bound')
      (result : Alike (name :: scope) body body') :
      Alike scope (.letRec name bound body) (.letRec name bound' body')
  | fn {scope : List String} (param : String) {body body' : Expr}
      (inside : Alike (param :: scope) body body') : Alike scope (.fn param body) (.fn param body')
  | app {scope : List String} {function function' argument argument' : Expr}
      (callee : Alike scope function function') (operand : Alike scope argument argument') :
      Alike scope (.app function argument) (.app function' argument')

theorem Expr.Alike.refl (scope : List String) (e : Expr) : e.Alike scope e := by
  induction e generalizing scope with
  | int n => exact .int n
  | bool b => exact .bool b
  | error => exact .error
  | var name => exact .var name
  | index i => exact .index i
  | binary op _ _ first second => exact .binary op (first scope) (second scope)
  | ite _ _ _ test holds fails => exact .ite (test scope) (holds scope) (fails scope)
  | letIn name _ _ definition result => exact .letIn name (definition scope) (result _)
  | letRec name _ _ definition result => exact .letRec name (definition _) (result _)
  | fn param _ inside => exact .fn param (inside _)
  | app _ _ callee operand => exact .app (callee scope) (operand scope)

theorem Expr.alike_nameless (scope : List String) (e : Expr) :
    e.Alike scope (e.nameless scope) := by
  induction e generalizing scope with
  | int n => exact .int n
  | bool b => exact .bool b
  | error => exact .error
  | var name =>
    rw [nameless]
    split
    · rename_i bound
      exact .resolved bound
    · exact .var name
  | index i => exact .index i
  | binary op _ _ first second => exact .binary op (first scope) (second scope)
  | ite _ _ _ test holds fails => exact .ite (test scope) (holds scope) (fails scope)
  | letIn name _ _ definition result => exact .letIn name (definition scope) (result _)
  | letRec name _ _ definition result => exact .letRec name (definition _) (result _)
  | fn param _ inside => exact .fn param (inside _)
  | app _ _ callee operand => exact .app (callee scope) (operand scope)

mutual

/-- Values that are one but for how the functions of closures write their variables. -/
inductive Value.Alike : Value → Value → Prop where
  | int (n : Int64) : Value.Alike (.int n) (.int n)
  | bool (b : Bool) : Value.Alike (.bool b) (.bool b)
  | error : Value.Alike .error .error
  | closure {env env' : Env} {param : String} {body body' : Expr} (captured : Env.Alike env env')
      (inside : body.Alike (param :: env.names) body') :
      Value.Alike (.closure env ⟨param, body⟩) (.closure env' ⟨param, body'⟩)
  | recClosure {env env' : Env} {name param : String} {body body' : Expr}
      (captured : Env.Alike env env') (inside : body.Alike (param :: name :: env.names) body') :
      Value.Alike (.recClosure env name ⟨param, body⟩) (.recClosure env' name ⟨param, body'⟩)

inductive Env.Alike : Env → Env → Prop where
  | empty : Env.Alike .empty .empty
  | push {env env' : Env} {name : String} {value value' : Value} (older : Env.Alike env env')
      (newest : Value.Alike value value') : Env.Alike (env.push name value) (env'.push name value')

end

mutual

theorem Value.Alike.refl : (value : Value) → value.Alike value
  | .int n => .int n
  | .bool b => .bool b
  | .error => .error
  | .closure env ⟨_, body⟩ => .closure (Env.Alike.refl env) (.refl _ body)
  | .recClosure env _ ⟨_, body⟩ => .recClosure (Env.Alike.refl env) (.refl _ body)

theorem Env.Alike.refl : (env : Env) → env.Alike env
  | .empty => .empty
  | .push env _ value => .push (Env.Alike.refl env) (Value.Alike.refl value)

end

/-! ## Looking up -/

theorem Env.lookup?_eq_nth? {env : Env} {name : String} {position : Nat}
    (bound : env.names.idxOf? name = some position) :
    env.lookup? name = env.nth? (position + 1) := by
  induction env generalizing position with
  | empty => cases bound
  | push env newest value ih =>
    rw [names, List.idxOf?_cons] at bound
    rw [lookup?_push]
    split at bound
    · rename_i same
      cases bound
      rw [if_pos (beq_iff_eq.1 same), nth?_push_one]
    · rename_i other
      obtain ⟨older, found, rfl⟩ := Option.map_eq_some_iff.1 bound
      rw [if_neg (fun same => other (beq_iff_eq.2 same)), nth?_push]
      exact ih found

variable {env env' : Env}

theorem Env.Alike.lookup? (h : env.Alike env') (name : String) :
    Option.Rel Value.Alike (env.lookup? name) (env'.lookup? name) := by
  induction env generalizing env' with
  | empty =>
    cases h
    exact .none
  | push env bound value ih =>
    cases h with
    | push older newest =>
      rw [lookup?_push, lookup?_push]
      split
      · exact .some newest
      · exact ih older

theorem Env.Alike.nth? (h : env.Alike env') (index : Nat) :
    Option.Rel Value.Alike (env.nth? index) (env'.nth? index) := by
  induction env generalizing env' index with
  | empty =>
    cases h
    exact .none
  | push env bound value ih =>
    cases h with
    | push older newest =>
      match index with
      | 0 => exact .none
      | 1 => exact .some newest
      | index + 2 => exact ih older (index + 1)

theorem Value.Alike.enter? {callee callee' argument argument' : Value}
    (closure : callee.Alike callee') (operand : argument.Alike argument') :
    Option.Rel (fun entered entered' => entered.1.Alike entered'.1 ∧
        entered.2.Alike entered.1.names entered'.2)
      (callee.enter? argument) (callee'.enter? argument') := by
  have itself := closure
  cases closure with
  | int | bool | error => exact .none
  | closure captured inside => exact .some ⟨.push captured operand, inside⟩
  | recClosure captured inside => exact .some ⟨.push (.push captured itself) operand, inside⟩

/-! ## Evaluation -/

theorem applyOperator_alike (op : Operator) {v₁ v₁' v₂ v₂' : Value} (first : v₁.Alike v₁')
    (second : v₂.Alike v₂') :
    Outcome.Matches Value.Alike (.ofExcept (applyOperator op v₁ v₂))
      (.ofExcept (applyOperator op v₁' v₂')) := by
  cases applied : applyOperator op v₁ v₂ with
  | ok value =>
    obtain ⟨m, n, fact, rfl, rfl, exact⟩ := applyOperator_eq_ok_iff.1 applied
    cases first
    cases second
    rw [applied]
    exact .ok (.refl _)
  | error e =>
    cases applied' : applyOperator op v₁' v₂' with
    | error e' => exact .error e e'
    | ok value =>
      obtain ⟨m, n, fact, rfl, rfl, exact⟩ := applyOperator_eq_ok_iff.1 applied'
      cases first
      cases second
      rw [applied] at applied'
      cases applied'

theorem evaluate_alike (bound : Nat) {e e' : Expr} (envs : env.Alike env')
    (es : e.Alike env.names e') :
    Outcome.Matches Value.Alike (evaluate bound env e) (evaluate bound env' e') := by
  -- Both runs take the same steps; only where they look for a variable do they differ.
  induction bound generalizing env env' e e' with
  | zero => exact .exhausted
  | succ bound ih =>
    generalize names : env.names = scope at es
    cases es with
    | int n => exact .ok (.int n)
    | bool b => exact .ok (.bool b)
    | error => exact .ok .error
    | var name =>
      rw [evaluate_var, evaluate_var]
      exact .of_rel (envs.lookup? name) _ _
    | resolved place =>
      subst names
      rw [evaluate_var, evaluate_index, Env.lookup?_eq_nth? place]
      exact .of_rel (envs.nth? _) _ _
    | index i =>
      rw [evaluate_index, evaluate_index]
      exact .of_rel (envs.nth? i) _ _
    | binary op first second =>
      subst names
      refine (ih envs first).bind fun v₁ v₁' left => ?_
      refine (ih envs second).bind fun v₂ v₂' right => ?_
      exact applyOperator_alike op left right
    | ite test holds fails =>
      subst names
      refine (ih envs test).bind fun condition condition' same => ?_
      cases same with
      | bool taken =>
        cases taken with
        | true => exact ih envs holds
        | false => exact ih envs fails
      | int | error | closure | recClosure => exact .error _ _
    | letIn name definition result =>
      subst names
      refine (ih envs definition).bind fun value value' same => ?_
      exact ih (envs.push same) result
    | letRec name definition result =>
      subst names
      cases definition with
      | fn param inside => exact ih (envs.push (.recClosure envs inside)) result
      | _ => exact .error _ _
    | fn param inside =>
      subst names
      exact .ok (.closure envs inside)
    | app callee operand =>
      subst names
      refine (ih envs callee).bind fun closure closure' same => ?_
      refine (ih envs operand).bind fun value value' same' => ?_
      have entered := same.enter? same'
      generalize closure.enter? value = inside, closure'.enter? value' = inside' at entered
      cases entered with
      | some bodies => exact ih bodies.1 bodies.2
      | none => exact .error _ _

/-! ## Results -/

theorem Value.Alike.eq_iff {value value' result : Value} (same : value.Alike value')
    (ground : result.isClosure = false) : value = result ↔ value' = result := by
  cases same with
  | int | bool | error => rfl
  | closure | recClosure =>
    constructor
    all_goals
      rintro rfl
      cases ground

/-- A program has the same numbers, truth values and errors for results if all variables that are
bound in it or in the environment are written as indices. -/
theorem evaluate_nameless (env : Env) (e : Expr) {value : Value}
    (ground : value.isClosure = false) :
    (∃ bound, evaluate bound env e = .ok value) ↔
      ∃ bound, evaluate bound env (e.nameless env.names) = .ok value := by
  refine exists_congr fun bound => ?_
  have runs := evaluate_alike bound (.refl env) (e.alike_nameless env.names)
  generalize evaluate bound env e = run, evaluate bound env (e.nameless env.names) = run' at runs
  cases runs with
  | ok values => rw [Outcome.ok.injEq, Outcome.ok.injEq, values.eq_iff ground]
  | error e e' => simp
  | exhausted => rfl

/-- `let rec f = fun x -> if x < 1 then y else f (x - 1) in let x = 2 in f x`, where `y` is bound in
the environment: `#3` inside `f`, behind `x` and `f`. -/
theorem evaluate_nameless_recursive :
    let env := Env.empty.push "y" (.int 10)
    let named := Expr.letRec "f"
      (.fn "x" (.ite (.binary .less (.var "x") (.int 1)) (.var "y")
        (.app (.var "f") (.binary .minus (.var "x") (.int 1)))))
      (.letIn "x" (.int 2) (.app (.var "f") (.var "x")))
    let nameless := Expr.letRec "f"
      (.fn "x" (.ite (.binary .less (.index 1) (.int 1)) (.index 3)
        (.app (.index 2) (.binary .minus (.index 1) (.int 1)))))
      (.letIn "x" (.int 2) (.app (.index 2) (.index 1)))
    named.nameless env.names = nameless ∧ (∃ bound, evaluate bound env named = .ok (.int 10)) ∧
      ∃ bound, evaluate bound env nameless = .ok (.int 10) := by
  intro env named nameless
  have renamed : named.nameless env.names = nameless := by decide +kernel
  have result : ∃ bound, evaluate bound env named = .ok (.int 10) := ⟨10, by decide +kernel⟩
  have same := (evaluate_nameless env named rfl).1 result
  rw [renamed] at same
  exact ⟨renamed, result, same⟩

end ErrorML
