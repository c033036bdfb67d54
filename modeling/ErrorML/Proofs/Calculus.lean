import ErrorML.Proofs.SideConditions

/-!
# The calculus

The rules of the language as a relation: `Derives style env e d` says that `d` is a derivation for
`e` in `env`, node by node. Inference finds exactly these derivations (`infer_iff_derives`).

* `Derives.of_infer` (soundness): what inference returns is built by the rules, by induction on the
  bound.
* `Derives.returns` (completeness): a derivation is returned under every bound that is large enough,
  by induction on the derivation. Larger bounds keep results, so the bounds of the premises have a
  common one.
* `Derives.unique`: both together give at most one derivation, since inference is a function.
-/

namespace ErrorML

variable {style : Style} {env : Env} {d d' : Derivation Rule}

/-! ## Conclusions -/

/-- The environment as a conclusion writes it. -/
def Style.written : Style → Env → Option Env
  | .turnstile, env => some env
  | .bare, .empty => none
  | .bare, .push env name value => some (.push env name value)

theorem Style.written_push (style : Style) (env : Env) (name : String) (value : Value) :
    style.written (env.push name value) = some (env.push name value) := by
  cases style <;> rfl

theorem Style.written_of_ne_empty (style : Style) (bound : env ≠ .empty) :
    style.written env = some env := by
  cases env with
  | empty => exact absurd rfl bound
  | push env name value => exact style.written_push env name value

@[simp] theorem Style.getD_written (style : Style) (env : Env) :
    (style.written env).getD .empty = env := by
  cases style <;> cases env <;> rfl

theorem Style.shown_eq (style : Style) (env : Env) : style.shown env = style.written env := by
  cases style <;> cases env <;> rfl

theorem conclude_eq (style : Style) (env : Env) (e : Expr) (value : Value) (rule : Rule)
    (premises : List (Premise Rule)) :
    conclude style env e value rule premises =
      .node ⟨style.written env, e, value⟩ rule premises := by
  rw [conclude, style.shown_eq]

/-! ## Rules -/

/-- The rules. Each one writes out its conclusion, its name and its premises, and asks nothing of
the functions that inference computes with. -/
inductive Derives (style : Style) : Env → Expr → Derivation Rule → Prop where
  | int (env : Env) (n : Int64) :
      Derives style env (.int n) (.node ⟨style.written env, .int n, .int n⟩ .int [])
  | bool (env : Env) (b : Bool) :
      Derives style env (.bool b) (.node ⟨style.written env, .bool b, .bool b⟩ .bool [])
  | error (env : Env) :
      Derives style env .error (.node ⟨style.written env, .error, .error⟩ .error [])
  | fn (env : Env) (param : String) (body : Expr) :
      Derives style env (.fn param body)
        (.node ⟨style.written env, .fn param body, .closure env ⟨param, body⟩⟩ .fn [])
  | index {env : Env} {position : Nat} {name : String} {value : Value}
      (place : env.toList[position]? = some (name, value)) :
      Derives style env (.index (position + 1))
        (.node ⟨style.written env, .index (position + 1), value⟩ .index [])
  | varTop (env : Env) (name : String) (value : Value) :
      Derives style (env.push name value) (.var name)
        (.node ⟨style.written (env.push name value), .var name, value⟩ .varTop [])
  | varBelow {env : Env} {bound name : String} {value : Value} {below : Derivation Rule}
      (other : bound ≠ name) (premise : Derives style env (.var name) below) :
      Derives style (env.push bound value) (.var name)
        (.node ⟨style.written (env.push bound value), .var name, below.value⟩ .varBelow
          [.derivation below])
  | letIn {env : Env} {name : String} {definition body : Expr} {d₁ d₂ : Derivation Rule}
      (bound : Derives style env definition d₁)
      (result : Derives style (env.push name d₁.value) body d₂) :
      Derives style env (.letIn name definition body)
        (.node ⟨style.written env, .letIn name definition body, d₂.value⟩ .letIn
          [.derivation d₁, .derivation d₂])
  | letRec {env : Env} {name param : String} {functionBody body : Expr} {d : Derivation Rule}
      (result : Derives style (env.push name (.recClosure env name ⟨param, functionBody⟩)) body d) :
      Derives style env (.letRec name (.fn param functionBody) body)
        (.node ⟨style.written env, .letRec name (.fn param functionBody) body, d.value⟩ .letRec
          [.derivation d])
  | app {env bodyEnv : Env} {function argument body : Expr} {rule : Rule}
      {d₁ d₂ d₃ : Derivation Rule} (callee : Derives style env function d₁)
      (operand : Derives style env argument d₂)
      (enters : d₁.value.Enters d₂.value rule bodyEnv body)
      (result : Derives style bodyEnv body d₃) :
      Derives style env (.app function argument)
        (.node ⟨style.written env, .app function argument, d₃.value⟩ rule
          [.derivation d₁, .derivation d₂, .derivation d₃])
  | operator {env : Env} {op : Operator} {left right : Expr} {m n : Int64} {fact : Fact}
      {value : Value} {d₁ d₂ : Derivation Rule} (first : Derives style env left d₁)
      (number : d₁.value = .int m) (second : Derives style env right d₂)
      (number' : d₂.value = .int n) (exact : fact.Exact op m n value) :
      Derives style env (.binary op left right)
        (.node ⟨style.written env, .binary op left right, value⟩ (.operator op)
          [.derivation d₁, .derivation d₂, .fact fact])
  | operandLeft {env : Env} {op : Operator} {left right : Expr} {fault : Fault}
      {d₁ : Derivation Rule} (first : Derives style env left d₁)
      (faulty : Fault.OfLeft d₁.value fault) :
      Derives style env (.binary op left right)
        (.node ⟨style.written env, .binary op left right, .error⟩ (.operand op fault)
          [.derivation d₁])
  /-- The left operand has to be a number, but its derivation is no premise. -/
  | operandRight {env : Env} {op : Operator} {left right : Expr} {m : Int64} {fault : Fault}
      {d₁ d₂ : Derivation Rule} (first : Derives style env left d₁) (number : d₁.value = .int m)
      (second : Derives style env right d₂) (faulty : Fault.OfRight d₂.value fault) :
      Derives style env (.binary op left right)
        (.node ⟨style.written env, .binary op left right, .error⟩ (.operand op fault)
          [.derivation d₂])
  | branch {env : Env} {condition thenBranch elseBranch : Expr} {taken : Bool} {rule : Rule}
      {d₁ d₂ : Derivation Rule} (test : Derives style env condition d₁)
      (truth : d₁.value = .bool taken)
      (result : Derives style env (if taken then thenBranch else elseBranch) d₂)
      (named : BranchRule taken d₂.value rule) :
      Derives style env (.ite condition thenBranch elseBranch)
        (.node ⟨style.written env, .ite condition thenBranch elseBranch, d₂.value⟩ rule
          [.derivation d₁, .derivation d₂])
  | condition {env : Env} {condition thenBranch elseBranch : Expr} {rule : Rule}
      {d₁ : Derivation Rule} (test : Derives style env condition d₁)
      (faulty : ConditionFault d₁.value rule) :
      Derives style env (.ite condition thenBranch elseBranch)
        (.node ⟨style.written env, .ite condition thenBranch elseBranch, .error⟩ rule
          [.derivation d₁])

/-! ## Soundness -/

theorem Derives.of_inferVar {name : String} (h : inferVar style name env = .ok d) :
    Derives style env (.var name) d := by
  induction env generalizing d with
  | empty => cases h
  | push env bound value ih =>
    simp only [inferVar, conclude_eq] at h
    split at h
    · rename_i same
      subst same
      cases h
      exact .varTop env bound value
    · rename_i other
      split at h
      · rename_i below found
        cases h
        exact .varBelow other (ih found)
      · cases h

theorem Derives.of_infer {bound : Nat} {e : Expr} (h : infer bound style env e = .ok d) :
    Derives style env e d := by
  induction bound generalizing env e d with
  | zero => cases h
  | succ bound ih =>
    cases e with
    | int n =>
      cases h
      rw [conclude_eq]
      exact .int env n
    | bool b =>
      cases h
      rw [conclude_eq]
      exact .bool env b
    | error =>
      cases h
      rw [conclude_eq]
      exact .error env
    | fn param body =>
      cases h
      rw [conclude_eq]
      exact .fn env param body
    | var name =>
      rw [infer] at h
      cases found : inferVar style name env with
      | error e =>
        rw [found] at h
        cases h
      | ok d' =>
        rw [found] at h
        cases h
        exact .of_inferVar found
    | index index =>
      simp only [infer, conclude_eq] at h
      split at h
      · rename_i value found
        cases h
        obtain ⟨position, name, rfl, place⟩ := Env.nth?_eq_some_iff.1 found
        exact .index place
      · cases h
    | letIn name definition body =>
      simp only [infer, conclude_eq, Outcome.bind_eq_ok] at h
      obtain ⟨d₁, bound, d₂, result, h⟩ := h
      cases h
      exact .letIn (ih bound) (ih result)
    | letRec name definition body =>
      cases definition with
      | fn param functionBody =>
        simp only [infer, conclude_eq, Outcome.bind_eq_ok] at h
        obtain ⟨d₁, result, h⟩ := h
        cases h
        exact .letRec (ih result)
      | _ => cases h
    | app function argument =>
      simp only [infer, conclude_eq, Outcome.bind_eq_ok] at h
      obtain ⟨d₁, callee, d₂, operand, h⟩ := h
      split at h
      · rename_i bodyEnv body enters
        rw [Outcome.bind_eq_ok] at h
        obtain ⟨d₃, result, h⟩ := h
        cases h
        exact .app (ih callee) (ih operand) (Value.enter?_eq_some_iff.1 enters) (ih result)
      · cases h
    | binary op left right =>
      simp only [infer, conclude_eq, Outcome.bind_eq_ok] at h
      obtain ⟨d₁, first, h⟩ := h
      split at h
      · rename_i fault faulty
        cases h
        exact .operandLeft (ih first) (Fault.ofLeft?_eq_some_iff.1 faulty)
      · cases h
      · rename_i m _ number
        have number := Value.asInt?_eq_some_iff.1 number
        obtain ⟨d₂, second, h⟩ := Outcome.bind_eq_ok.1 h
        split at h
        · rename_i fault faulty
          cases h
          exact .operandRight (ih first) number (ih second) (Fault.ofRight?_eq_some_iff.1 faulty)
        · cases h
        · rename_i n _ number'
          have number' := Value.asInt?_eq_some_iff.1 number'
          split at h
          · rename_i fact computed
            cases h
            have exact := Fact.exact_iff.2 ⟨computed, rfl⟩
            exact .operator (ih first) number (ih second) number' exact
          · cases h
    | ite condition thenBranch elseBranch =>
      simp only [infer, conclude_eq, Outcome.bind_eq_ok] at h
      obtain ⟨d₁, test, h⟩ := h
      split at h
      · rename_i taken truth
        obtain ⟨d₂, result, h⟩ := Outcome.bind_eq_ok.1 h
        cases h
        exact .branch (ih test) truth (ih result) (branchRule_eq_iff.1 rfl)
      · rename_i faulty
        cases h
        exact .condition (ih test) (faulty ▸ .error)
      · rename_i n faulty
        cases h
        exact .condition (ih test) (faulty ▸ .int n)
      · cases h
      · cases h

/-! ## Completeness -/

theorem Derives.inferVar_eq {name : String} (h : Derives style env (.var name) d) :
    inferVar style name env = .ok d := by
  induction env generalizing d with
  | empty => cases h
  | push env bound value ih =>
    cases h with
    | varTop => rw [inferVar, if_pos rfl, conclude_eq]
    | varBelow other premise => simp only [inferVar, if_neg other, ih premise, conclude_eq]

theorem Derives.returns {e : Expr} (h : Derives style env e d) :
    Outcome.Returns (fun bound => infer bound style env e) d := by
  induction h with
  | int | bool | error | fn =>
    rw [← conclude_eq]
    exact .of_succ (.const _)
  | @index env position name value place =>
    have found := Env.nth?_eq_some_iff.2 ⟨position, name, rfl, place⟩
    apply Outcome.Returns.of_succ
    simp only [infer, found, conclude_eq]
    exact .const _
  | varTop env name value =>
    apply Outcome.Returns.of_succ
    simp only [infer, (Derives.varTop env name value).inferVar_eq]
    exact .const _
  | varBelow other premise _ =>
    apply Outcome.Returns.of_succ
    simp only [infer, (Derives.varBelow other premise).inferVar_eq]
    exact .const _
  | letIn _ _ bound result =>
    rw [← conclude_eq]
    exact .of_succ (bound.bind (result.bind (.const _)))
  | letRec _ result =>
    rw [← conclude_eq]
    exact .of_succ (result.bind (.const _))
  | app _ _ enters _ callee operand result =>
    have found := Value.enter?_eq_some_iff.2 (enters.rule_eq ▸ enters)
    apply Outcome.Returns.of_succ
    refine callee.bind (operand.bind ?_)
    simp only [found, enters.rule_eq, conclude_eq]
    exact result.bind (.const _)
  | operator _ number _ number' exact first second =>
    obtain ⟨computed, rfl⟩ := Fact.exact_iff.1 exact
    apply Outcome.Returns.of_succ
    refine first.bind ?_
    simp only [number, Fault.ofLeft?, Value.asInt?]
    refine second.bind ?_
    simp only [number', Fault.ofRight?, computed, conclude_eq]
    exact .const _
  | operandLeft _ faulty first =>
    have faulty := Fault.ofLeft?_eq_some_iff.2 faulty
    apply Outcome.Returns.of_succ
    refine first.bind ?_
    simp only [faulty, conclude_eq]
    exact .const _
  | operandRight _ number _ faulty first second =>
    have faulty := Fault.ofRight?_eq_some_iff.2 faulty
    apply Outcome.Returns.of_succ
    refine first.bind ?_
    simp only [number, Fault.ofLeft?, Value.asInt?]
    refine second.bind ?_
    simp only [faulty, conclude_eq]
    exact .const _
  | branch _ truth _ named test result =>
    have named := branchRule_eq_iff.2 named
    apply Outcome.Returns.of_succ
    refine test.bind ?_
    simp only [truth]
    refine result.bind ?_
    simp only [named, conclude_eq]
    exact .const _
  | condition _ faulty test =>
    rw [← conclude_eq]
    apply Outcome.Returns.of_succ
    refine test.bind ?_
    cases value : Derivation.value _ <;> rw [value] at faulty <;> cases faulty
    all_goals exact .const _

/-! ## Inference and the rules -/

theorem infer_ok_iff {e : Expr} :
    (∃ bound, infer bound style env e = .ok d) ↔ Derives style env e d := by
  constructor
  · rintro ⟨bound, h⟩
    exact .of_infer h
  · intro h
    obtain ⟨bound, returns⟩ := h.returns
    exact ⟨bound, returns bound (Nat.le_refl bound)⟩

theorem Derives.unique {e : Expr} (h : Derives style env e d) (h' : Derives style env e d') :
    d = d' := by
  obtain ⟨b₁, returns⟩ := h.returns
  obtain ⟨b₂, returns'⟩ := h'.returns
  have first := returns (max b₁ b₂) (by omega)
  have second := returns' (max b₁ b₂) (by omega)
  exact Outcome.ok.inj (first.symm.trans second)

/-- Inference returns exactly the derivations that the rules allow, and they allow at most one. -/
theorem infer_iff_derives (env : Env) (e : Expr) :
    (∀ d, (∃ bound, infer bound .turnstile env e = .ok d) ↔ Derives .turnstile env e d) ∧
      ∀ d₁ d₂, Derives .turnstile env e d₁ → Derives .turnstile env e d₂ → d₁ = d₂ :=
  ⟨fun _ => infer_ok_iff, fun _ _ first second => first.unique second⟩

end ErrorML
