import ErrorML.Proofs.SideConditions

namespace ErrorML

variable {env : Env} {e : Expr} {value : Value}

inductive Evaluates : Env → Expr → Value → Prop where
  | int (env : Env) (n : Int64) : Evaluates env (.int n) (.int n)
  | bool (env : Env) (b : Bool) : Evaluates env (.bool b) (.bool b)
  | error (env : Env) : Evaluates env .error .error
  | fn (env : Env) (param : String) (body : Expr) :
      Evaluates env (.fn param body) (.closure env ⟨param, body⟩)
  | var {env : Env} {name : String} {value : Value} (found : env.lookup? name = some value) :
      Evaluates env (.var name) value
  | index {env : Env} {position : Nat} {name : String} {value : Value}
      (place : env.toList[position]? = some (name, value)) :
      Evaluates env (.index (position + 1)) value
  | letIn {env : Env} {name : String} {definition body : Expr} {v₁ v₂ : Value}
      (bound : Evaluates env definition v₁) (result : Evaluates (env.push name v₁) body v₂) :
      Evaluates env (.letIn name definition body) v₂
  | letRec {env : Env} {name param : String} {functionBody body : Expr} {value : Value}
      (result : Evaluates (env.push name (.recClosure env name ⟨param, functionBody⟩)) body value) :
      Evaluates env (.letRec name (.fn param functionBody) body) value
  | app {env bodyEnv : Env} {function argument body : Expr} {rule : Rule} {v₁ v₂ v₃ : Value}
      (callee : Evaluates env function v₁) (operand : Evaluates env argument v₂)
      (enters : v₁.Enters v₂ rule bodyEnv body) (result : Evaluates bodyEnv body v₃) :
      Evaluates env (.app function argument) v₃
  | binary {env : Env} {op : Operator} {left right : Expr} {m n : Int64} {fact : Fact}
      {value : Value} (first : Evaluates env left (.int m)) (second : Evaluates env right (.int n))
      (exact : fact.Exact op m n value) : Evaluates env (.binary op left right) value
  | ite {env : Env} {condition thenBranch elseBranch : Expr} {taken : Bool} {value : Value}
      (test : Evaluates env condition (.bool taken))
      (result : Evaluates env (if taken then thenBranch else elseBranch) value) :
      Evaluates env (.ite condition thenBranch elseBranch) value

theorem Evaluates.of_evaluate {bound : Nat} (h : evaluate bound env e = .ok value) :
    Evaluates env e value := by
  induction bound generalizing env e value with
  | zero => cases h
  | succ bound ih =>
    cases e with
    | int n =>
      cases h
      exact .int env n
    | bool b =>
      cases h
      exact .bool env b
    | error =>
      cases h
      exact .error env
    | fn param body =>
      cases h
      exact .fn env param body
    | var name =>
      simp only [evaluate] at h
      split at h
      · rename_i found
        cases h
        exact .var found
      · cases h
    | index index =>
      simp only [evaluate] at h
      split at h
      · rename_i found
        cases h
        obtain ⟨position, name, rfl, place⟩ := Env.nth?_eq_some_iff.1 found
        exact .index place
      · cases h
    | letIn name definition body =>
      simp only [evaluate, Outcome.bind_eq_ok] at h
      obtain ⟨v₁, bound, result⟩ := h
      exact .letIn (ih bound) (ih result)
    | letRec name definition body =>
      cases definition with
      | fn param functionBody => exact .letRec (ih h)
      | _ => cases h
    | app function argument =>
      simp only [evaluate, Outcome.bind_eq_ok] at h
      obtain ⟨v₁, callee, v₂, operand, h⟩ := h
      split at h
      · rename_i bodyEnv body enters
        exact .app (ih callee) (ih operand) (Value.enter?_eq_some_iff.1 enters) (ih h)
      · cases h
    | binary op left right =>
      simp only [evaluate, Outcome.bind_eq_ok] at h
      obtain ⟨v₁, first, v₂, second, h⟩ := h
      cases applied : applyOperator op v₁ v₂ with
      | error e =>
        rw [applied] at h
        cases h
      | ok v =>
        rw [applied] at h
        cases h
        obtain ⟨m, n, fact, rfl, rfl, exact⟩ := applyOperator_eq_ok_iff.1 applied
        exact .binary (ih first) (ih second) exact
    | ite condition thenBranch elseBranch =>
      simp only [evaluate, Outcome.bind_eq_ok] at h
      obtain ⟨v₁, test, h⟩ := h
      split at h
      · have result : Evaluates env (if true then thenBranch else elseBranch) value := ih h
        exact .ite (ih test) result
      · have result : Evaluates env (if false then thenBranch else elseBranch) value := ih h
        exact .ite (ih test) result
      · cases h
      · cases h

theorem Evaluates.returns (h : Evaluates env e value) :
    Outcome.Returns (fun bound => evaluate bound env e) value := by
  induction h with
  | int env n => exact .of_succ (.const _)
  | bool env b => exact .of_succ (.const _)
  | error env => exact .of_succ (.const _)
  | fn env param body => exact .of_succ (.const _)
  | var found =>
    apply Outcome.Returns.of_succ
    simp only [evaluate, found]
    exact .const _
  | @index env position name value place =>
    have found := Env.nth?_eq_some_iff.2 ⟨position, name, rfl, place⟩
    apply Outcome.Returns.of_succ
    simp only [evaluate, found]
    exact .const _
  | letIn _ _ bound result => exact .of_succ (bound.bind result)
  | letRec _ result => exact .of_succ result
  | app _ _ enters _ callee operand result =>
    have found := Value.enter?_eq_some_iff.2 (enters.rule_eq ▸ enters)
    apply Outcome.Returns.of_succ
    refine callee.bind (operand.bind ?_)
    simp only [found]
    exact result
  | @binary env op left right m n fact value _ _ exact first second =>
    have applied := applyOperator_eq_ok_iff.2 ⟨m, n, fact, rfl, rfl, exact⟩
    apply Outcome.Returns.of_succ
    refine first.bind (second.bind ?_)
    simp only [applied]
    exact .const _
  | @ite env condition thenBranch elseBranch taken value _ _ test result =>
    apply Outcome.Returns.of_succ
    refine test.bind ?_
    cases taken
    · exact result
    · exact result

theorem evaluate_ok_iff : (∃ bound, evaluate bound env e = .ok value) ↔ Evaluates env e value := by
  constructor
  · rintro ⟨bound, h⟩
    exact .of_evaluate h
  · intro h
    obtain ⟨bound, returns⟩ := h.returns
    exact ⟨bound, returns bound (Nat.le_refl bound)⟩

end ErrorML
