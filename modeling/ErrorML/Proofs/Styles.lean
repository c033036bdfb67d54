import ErrorML.Proofs.Calculus

namespace ErrorML

def Judgment.inStyle (style : Style) (j : Judgment) : Judgment :=
  { j with env := style.written (j.env.getD .empty) }

mutual

def Derivation.inStyle {ρ : Type} (style : Style) : Derivation ρ → Derivation ρ
  | .node conclusion rule premises =>
    .node (conclusion.inStyle style) rule (Premise.allInStyle style premises)

def Premise.inStyle {ρ : Type} (style : Style) : Premise ρ → Premise ρ
  | .derivation d => .derivation (d.inStyle style)
  | .fact fact => .fact fact

def Premise.allInStyle {ρ : Type} (style : Style) : List (Premise ρ) → List (Premise ρ)
  | [] => []
  | premise :: premises => premise.inStyle style :: Premise.allInStyle style premises

end

section Equations

variable {ρ : Type} (style style' : Style)

@[simp] theorem Premise.inStyle_derivation (d : Derivation ρ) :
    (derivation d).inStyle style = derivation (d.inStyle style) := by
  rw [inStyle]

@[simp] theorem Premise.inStyle_fact (f : Fact) :
    (fact f : Premise ρ).inStyle style = fact f := by
  rw [inStyle]

@[simp] theorem Premise.allInStyle_nil : allInStyle style ([] : List (Premise ρ)) = [] := by
  rw [allInStyle]

@[simp] theorem Premise.allInStyle_cons (premise : Premise ρ) (premises : List (Premise ρ)) :
    allInStyle style (premise :: premises) =
      premise.inStyle style :: allInStyle style premises := by
  rw [allInStyle]

@[simp] theorem Derivation.value_inStyle (d : Derivation ρ) :
    (d.inStyle style).value = d.value := by
  cases d
  rw [inStyle]
  rfl

@[simp] theorem Judgment.inStyle_written (env : Env) (e : Expr) (value : Value) :
    (mk (style.written env) e value).inStyle style' = ⟨style'.written env, e, value⟩ := by
  rw [inStyle, Style.getD_written]

@[simp] theorem Derivation.inStyle_node (conclusion : Judgment) (rule : ρ)
    (premises : List (Premise ρ)) :
    (node conclusion rule premises).inStyle style =
      node (conclusion.inStyle style) rule (Premise.allInStyle style premises) := by
  rw [inStyle]

@[simp] theorem conclude_inStyle (env : Env) (e : Expr) (value : Value) (rule : Rule)
    (premises : List (Premise Rule)) :
    (conclude style env e value rule premises).inStyle style' =
      conclude style' env e value rule (Premise.allInStyle style' premises) := by
  rw [conclude_eq, conclude_eq, Derivation.inStyle_node, Judgment.inStyle_written]

end Equations

variable {style style' : Style} {env : Env} {e : Expr} {d : Derivation Rule}

theorem inferVar_inStyle (style style' : Style) (env : Env) (name : String) :
    inferVar style' name env = (inferVar style name env).map (Derivation.inStyle style') := by
  induction env with
  | empty => rfl
  | push env bound value ih =>
    rw [inferVar, inferVar, ih]
    split
    · simp [Except.map]
    · cases inferVar style name env <;> simp [Except.map]

theorem infer_inStyle (bound : Nat) (style style' : Style) (env : Env) (e : Expr) :
    infer bound style' env e = Derivation.inStyle style' <$> infer bound style env e := by
  induction bound generalizing env e with
  | zero => rfl
  | succ bound ih =>
    cases e with
    | int | bool | error | fn => simp [infer]
    | var name =>
      rw [infer, infer, inferVar_inStyle style]
      cases inferVar style name env <;> rfl
    | index index =>
      rw [infer, infer]
      split <;> simp
    | binary op left right =>
      rw [infer, infer, ih env left]
      refine Outcome.map_bind_map fun d₁ => ?_
      -- The values do not tell the styles apart, so that both runs take one branch.
      rw [Derivation.value_inStyle]
      split
      · simp
      · simp
      · rw [ih env right]
        refine Outcome.map_bind_map fun d₂ => ?_
        rw [Derivation.value_inStyle]
        split
        · simp
        · simp
        · split <;> simp
    | ite condition thenBranch elseBranch =>
      rw [infer, infer, ih env condition]
      refine Outcome.map_bind_map fun d₁ => ?_
      rw [Derivation.value_inStyle]
      split
      · rw [ih env]
        refine Outcome.map_bind_map fun d₂ => ?_
        simp
      all_goals simp
    | letIn name definition body =>
      rw [infer, infer, ih env definition]
      refine Outcome.map_bind_map fun d₁ => ?_
      rw [Derivation.value_inStyle, ih _ body]
      refine Outcome.map_bind_map fun d₂ => ?_
      simp
    | letRec name definition body =>
      cases definition with
      | fn param functionBody =>
        rw [infer, infer, ih _ body]
        refine Outcome.map_bind_map fun d => ?_
        simp
      | _ => simp [infer]
    | app function argument =>
      rw [infer, infer, ih env function]
      refine Outcome.map_bind_map fun d₁ => ?_
      rw [ih env argument]
      refine Outcome.map_bind_map fun d₂ => ?_
      rw [Derivation.value_inStyle, Derivation.value_inStyle]
      split
      · rw [ih]
        refine Outcome.map_bind_map fun d₃ => ?_
        simp
      · simp

theorem Derives.inStyle (h : Derives style env e d) (style' : Style) :
    Derives style' env e (d.inStyle style') := by
  obtain ⟨bound, found⟩ := infer_ok_iff.2 h
  have later : infer bound style' env e = .ok (d.inStyle style') := by
    rw [infer_inStyle bound style, found, Outcome.map_ok]
  exact .of_infer later

theorem Style.written_eq_of_ne_empty (style : Style) (bound : env ≠ .empty) :
    style'.written env = style.written env := by
  rw [written_of_ne_empty style bound, written_of_ne_empty style' bound]

theorem Value.Enters.ne_empty {callee argument : Value} {rule : Rule} {bodyEnv : Env} {body : Expr}
    (h : callee.Enters argument rule bodyEnv body) : bodyEnv ≠ .empty := by
  cases h <;> simp

/-- All environments above a binding have one: they are the same, or have a further binding, or an
older one in which the variable is still found, or belong to a closure that is entered. -/
theorem Derives.inStyle_eq (h : Derives style env e d) (bound : env ≠ .empty) (style' : Style) :
    d.inStyle style' = d := by
  induction h with
  | int | bool | error | fn | index | varTop => simp [Style.written_eq_of_ne_empty style bound]
  | @varBelow env _ _ _ _ _ premise below =>
    have older : env ≠ .empty := by
      rintro rfl
      cases premise
    simp [Style.written_eq_of_ne_empty style bound, below older]
  | letIn _ _ first result => simp [Style.written_eq_of_ne_empty style bound, first bound, result]
  | letRec _ result => simp [Style.written_eq_of_ne_empty style bound, result]
  | app _ _ enters _ callee operand result =>
    simp [Style.written_eq_of_ne_empty style bound, callee bound, operand bound,
      result enters.ne_empty]
  | operator _ _ _ _ _ first second =>
    simp [Style.written_eq_of_ne_empty style bound, first bound, second bound]
  | operandLeft _ _ first => simp [Style.written_eq_of_ne_empty style bound, first bound]
  | operandRight _ _ _ _ _ second =>
    simp [Style.written_eq_of_ne_empty style bound, second bound]
  | branch _ _ _ _ test result =>
    simp [Style.written_eq_of_ne_empty style bound, test bound, result bound]
  | condition _ _ test => simp [Style.written_eq_of_ne_empty style bound, test bound]

end ErrorML
