import ErrorML.Proofs.Parts
import ErrorML.Proofs.Reproving

namespace ErrorML

mutual

def Value.functions : Value → List Function
  | .int _ | .bool _ | .error => []
  | .closure env function | .recClosure env _ function => function :: env.functions

def Env.functions : Env → List Function
  | .empty => []
  | .push env _ value => value.functions ++ env.functions

end

def Judgment.functions (j : Judgment) : List Function :=
  (j.env.getD .empty).functions ++ j.value.functions

/-- A collection of code, which with an expression has its parts, with a function literal the
function that it writes, and with a function the body. -/
structure Codebase where
  expr : Expr → Prop
  function : Function → Prop
  part : ∀ {part e : Expr}, expr e → part ∈ e.parts → expr part
  written : ∀ {f : Function}, expr f.expr → function f
  body : ∀ {f : Function}, function f → expr f.body

def Codebase.of (env : Env) (e : Expr) : Codebase where
  expr part := part ∈ e.parts ∨ ∃ f ∈ env.functions, part ∈ f.body.parts
  function f := (f.expr ∈ e.parts ∨ ∃ g ∈ env.functions, f.expr ∈ g.body.parts) ∨ f ∈ env.functions
  part := by
    rintro part e (here | ⟨f, member, there⟩) within
    · exact .inl (Expr.mem_parts_trans within here)
    · exact .inr ⟨f, member, Expr.mem_parts_trans within there⟩
  written := .inl
  body := by
    have inside (f : Function) : f.body ∈ f.expr.parts := by simp [Function.expr, Expr.parts]
    rintro f ((here | ⟨g, member, there⟩) | member)
    · exact .inl (Expr.mem_parts_trans (inside f) here)
    · exact .inr ⟨g, member, Expr.mem_parts_trans (inside f) there⟩
    · exact .inr ⟨f, member, f.body.mem_parts_self⟩

section Within

variable {code : Codebase}

def Value.Within (code : Codebase) (v : Value) : Prop := ∀ f ∈ v.functions, code.function f

def Env.Within (code : Codebase) (env : Env) : Prop := ∀ f ∈ env.functions, code.function f

structure Judgment.Within (code : Codebase) (j : Judgment) : Prop where
  expr : code.expr j.expr
  functions : ∀ f ∈ j.functions, code.function f

@[simp] theorem Value.within_int (n : Int64) : (int n).Within code := by
  simp [Within, functions]

@[simp] theorem Value.within_bool (b : Bool) : (bool b).Within code := by
  simp [Within, functions]

@[simp] theorem Value.within_error : error.Within code := by
  simp [Within, functions]

theorem Value.within_closure {env : Env} {f : Function} :
    (closure env f).Within code ↔ code.function f ∧ env.Within code := by
  simp [Within, Env.Within, functions]

theorem Value.within_recClosure {env : Env} {name : String} {f : Function} :
    (recClosure env name f).Within code ↔ code.function f ∧ env.Within code := by
  simp [Within, Env.Within, functions]

theorem Env.within_push {env : Env} {name : String} {value : Value} :
    (env.push name value).Within code ↔ env.Within code ∧ value.Within code := by
  simp [Within, Value.Within, functions, or_imp, forall_and, and_comm]

theorem Env.Within.push {env : Env} {name : String} {value : Value} (h : env.Within code)
    (newest : value.Within code) : (env.push name value).Within code :=
  within_push.2 ⟨h, newest⟩

theorem Fact.Exact.within {op : Operator} {m n : Int64} {fact : Fact} {value : Value}
    (h : fact.Exact op m n value) : value.Within code := by
  cases h <;> simp

end Within

variable {code : Codebase} {style : Style} {env : Env} {e : Expr} {d : Derivation Rule}

theorem Env.Within.mem (h : env.Within code) {name : String} {v : Value}
    (member : (name, v) ∈ env.toList) : v.Within code := by
  induction env with
  | empty => cases member
  | push env bound value ih =>
    rw [within_push] at h
    cases member with
    | head => exact h.2
    | tail _ member => exact ih h.1 member

theorem Value.Enters.within {callee argument : Value} {rule : Rule} {bodyEnv : Env} {body : Expr}
    (h : callee.Enters argument rule bodyEnv body) (closure : callee.Within code)
    (operand : argument.Within code) : bodyEnv.Within code ∧ code.expr body := by
  cases h with
  | closure captured param body =>
    obtain ⟨own, envs⟩ := Value.within_closure.1 closure
    exact ⟨envs.push operand, code.body own⟩
  | recClosure captured self param body =>
    obtain ⟨own, envs⟩ := Value.within_recClosure.1 closure
    exact ⟨(envs.push closure).push operand, code.body own⟩

def Derivation.Within (code : Codebase) (d : Derivation Rule) : Prop :=
  ∀ node ∈ d.nodes, node.conclusion.Within code

theorem Derivation.Within.value (h : d.Within code) : d.value.Within code :=
  fun f member => (h d d.mem_nodes_self).functions f (List.mem_append_right _ member)

theorem node_within {value : Value} {rule : Rule} {premises : List (Premise Rule)}
    (own : code.expr e) (envs : env.Within code) (result : value.Within code)
    (above : ∀ d, .derivation d ∈ premises → d.Within code) :
    (Derivation.node ⟨style.written env, e, value⟩ rule premises).Within code := by
  refine Derivation.forall_nodes_node.2 ⟨⟨own, fun f member => ?_⟩, above⟩
  rw [Derivation.conclusion_node, Judgment.functions, Style.getD_written,
    List.mem_append] at member
  rcases member with member | member
  · exact envs f member
  · exact result f member

theorem Derives.within (h : Derives style env e d) (own : code.expr e) (envs : env.Within code) :
    d.Within code := by
  induction h with
  | int | bool | error => exact node_within own envs (by simp) (by simp)
  | fn env param body =>
    have function : code.function ⟨param, body⟩ := code.written own
    exact node_within own envs (Value.within_closure.2 ⟨function, envs⟩) (by simp)
  | index place =>
    exact node_within own envs (envs.mem (List.mem_of_getElem? place)) (by simp)
  | varTop env name value =>
    exact node_within own envs (Env.within_push.1 envs).2 (by simp)
  | varBelow other _ ih =>
    have below := ih own (Env.within_push.1 envs).1
    exact node_within own envs below.value (by simpa using below)
  | letIn _ _ ih₁ ih₂ =>
    have bound := ih₁ (code.part own (by simp [Expr.parts])) envs
    have result := ih₂ (code.part own (by simp [Expr.parts])) (envs.push bound.value)
    exact node_within own envs result.value (by simp [bound, result])
  | @letRec env name param functionBody _ _ _ ih =>
    have function : code.function ⟨param, functionBody⟩ :=
      code.written (code.part own (by simp [Expr.parts, Function.expr]))
    have closure : (Value.recClosure env name ⟨param, functionBody⟩).Within code :=
      Value.within_recClosure.2 ⟨function, envs⟩
    have result := ih (code.part own (by simp [Expr.parts])) (envs.push closure)
    exact node_within own envs result.value (by simpa using result)
  | app _ _ enters _ ih₁ ih₂ ih₃ =>
    have callee := ih₁ (code.part own (by simp [Expr.parts])) envs
    have operand := ih₂ (code.part own (by simp [Expr.parts])) envs
    obtain ⟨bodyEnvs, body⟩ := enters.within callee.value operand.value
    have result := ih₃ body bodyEnvs
    exact node_within own envs result.value (by simp [callee, operand, result])
  | operator _ _ _ _ exact ih₁ ih₂ =>
    have first := ih₁ (code.part own (by simp [Expr.parts])) envs
    have second := ih₂ (code.part own (by simp [Expr.parts])) envs
    exact node_within own envs exact.within (by simp [first, second])
  | operandLeft _ _ ih =>
    have first := ih (code.part own (by simp [Expr.parts])) envs
    exact node_within own envs (by simp) (by simpa using first)
  | operandRight _ _ _ _ _ ih =>
    have second := ih (code.part own (by simp [Expr.parts])) envs
    exact node_within own envs (by simp) (by simpa using second)
  | @branch _ _ _ _ taken _ _ _ _ _ _ _ ih₁ ih₂ =>
    have test := ih₁ (code.part own (by simp [Expr.parts])) envs
    have result := ih₂ (code.part own (by cases taken <;> simp [Expr.parts])) envs
    exact node_within own envs result.value (by simp [test, result])
  | condition _ _ ih =>
    have test := ih (code.part own (by simp [Expr.parts])) envs
    exact node_within own envs (by simp) (by simpa using test)

/-- In every derivation, each expression is a part of the program or of a function in the
environment. Each function of a closure is written in the program, comes from the environment, or is
written in a function that does. -/
theorem infer_own_code {bound : Nat} (found : infer bound style env e = .ok d) :
    ∀ node ∈ d.nodes,
      (node.conclusion.expr ∈ e.parts ∨ ∃ f ∈ env.functions, node.conclusion.expr ∈ f.body.parts) ∧
      ∀ f ∈ node.conclusion.functions, f.expr ∈ e.parts ∨ f ∈ env.functions ∨
        ∃ g ∈ env.functions, f.expr ∈ g.body.parts := by
  have own : (Codebase.of env e).expr e := .inl e.mem_parts_self
  have envs : env.Within (.of env e) := fun _ member => .inr member
  intro node member
  obtain ⟨code, functions⟩ := (Derives.of_infer found).within own envs node member
  refine ⟨code, fun f occurs => ?_⟩
  rcases functions f occurs with (here | there) | given
  · exact .inl here
  · exact .inr (.inr there)
  · exact .inr (.inl given)

/-- `f 1`, where `f` is `fun x -> fun y -> x`. The function of its value is written neither in the
program nor as that of a closure, but in the body of one. -/
theorem infer_own_code_captured :
    let inner : Function := ⟨"y", .var "x"⟩
    let env := Env.empty.push "f" (.closure .empty ⟨"x", inner.expr⟩)
    let e := Expr.app (.var "f") (.int 1)
    ∃ d, infer 2 .turnstile env e = .ok d ∧
      d.value = .closure (Env.empty.push "x" (.int 1)) inner ∧
      inner.expr ∉ e.parts ∧ inner ∉ env.functions ∧
      ∀ node ∈ d.nodes,
        (node.conclusion.expr ∈ e.parts ∨
          ∃ f ∈ env.functions, node.conclusion.expr ∈ f.body.parts) ∧
        ∀ f ∈ node.conclusion.functions, f.expr ∈ e.parts ∨ f ∈ env.functions ∨
          ∃ g ∈ env.functions, f.expr ∈ g.body.parts := by
  intro inner env e
  obtain ⟨d, found, value⟩ : ∃ d, infer 2 .turnstile env e = .ok d ∧
      d.value = .closure (Env.empty.push "x" (.int 1)) inner := ⟨_, rfl, rfl⟩
  refine ⟨d, found, value, by decide +kernel, by decide +kernel, infer_own_code found⟩

end ErrorML
