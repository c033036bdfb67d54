import ErrorML.Checking
import ErrorML.Proofs.Styles

namespace ErrorML

variable {style : Style} {env : Env} {e : Expr} {d : Derivation Rule}

theorem Derives.conclusion_eq (h : Derives style env e d) :
    d.conclusion = ⟨style.written env, e, d.value⟩ := by
  cases h <;> rfl

theorem Judgment.written_style (j : Judgment) :
    j.style.written (j.env.getD .empty) = j.env := by
  obtain ⟨env, e, value⟩ := j
  cases env <;> rfl

theorem Derives.concludes {j : Judgment}
    (h : Derives j.style (j.env.getD .empty) j.expr d) :
    d.conclusion = { j with value := d.value } := by
  rw [h.conclusion_eq, j.written_style]

theorem proveJudgment_iff_derives {j : Judgment} :
    (∃ bound, proveJudgment bound j = .ok d) ↔
      Derives j.style (j.env.getD .empty) j.expr d ∧ d.value = j.value := by
  rw [← infer_ok_iff]
  simp only [proveJudgment_ok, exists_and_right]

/-- A judgment is proved exactly by the derivation for its expression, if the values agree, and the
proof concludes it as it was written. Where the expression has another value, the judgment with that
value is proved by the derivation that was found. -/
theorem proveJudgment_iff_infer (j : Judgment) :
    (∀ d, (∃ bound, proveJudgment bound j = .ok d) ↔
      (∃ bound, infer bound j.style (j.env.getD .empty) j.expr = .ok d) ∧ d.value = j.value) ∧
    (∀ bound d, proveJudgment bound j = .ok d → d.conclusion = j) ∧
    (∀ bound d, infer bound j.style (j.env.getD .empty) j.expr = .ok d →
      proveJudgment bound { j with value := d.value } = .ok d) := by
  refine ⟨fun d => ?_, fun bound d proved => ?_,
    fun bound d found => proveJudgment_ok.2 ⟨found, rfl⟩⟩
  · rw [infer_ok_iff, proveJudgment_iff_derives]
  · obtain ⟨found, value⟩ := proveJudgment_ok.1 proved
    rw [(Derives.of_infer found).concludes, value]

theorem proveJudgment_iff_infer_closure :
    let env := Env.empty.push "y" (.int 1)
    let closure := Value.closure env ⟨"x", .var "y"⟩
    let d := conclude .turnstile env (.fn "x" (.var "y")) closure .fn []
    infer 1 .turnstile env (.fn "x" (.var "y")) = .ok d ∧
      proveJudgment 1 ⟨some env, .fn "x" (.var "y"), .int 4⟩ =
        .error (.wrongValue d.conclusion ⟨some env, .fn "x" (.var "y"), .int 4⟩) ∧
      proveJudgment 1 ⟨some env, .fn "x" (.var "y"), closure⟩ = .ok d := by
  intro env closure d
  have found : infer 1 .turnstile env (.fn "x" (.var "y")) = .ok d := rfl
  have stated := (proveJudgment_iff_infer ⟨some env, .fn "x" (.var "y"), .int 4⟩).2.2 1 d found
  exact ⟨found, rfl, stated⟩

theorem derived_nodes_node {conclusion : Judgment} {rule : Rule} {premises : List (Premise Rule)}
    (root : Derives style env e (.node conclusion rule premises))
    (above : ∀ d, .derivation d ∈ premises → ∀ node ∈ d.nodes, ∃ env e, Derives style env e node) :
    ∀ node ∈ (Derivation.node conclusion rule premises).nodes, ∃ env e, Derives style env e node :=
  Derivation.forall_nodes_node.2 ⟨⟨env, e, root⟩, above⟩

theorem Derives.nodes (h : Derives style env e d) :
    ∀ node ∈ d.nodes, ∃ env e, Derives style env e node := by
  induction h with
  | int env n => exact derived_nodes_node (.int env n) (by simp)
  | bool env b => exact derived_nodes_node (.bool env b) (by simp)
  | error env => exact derived_nodes_node (.error env) (by simp)
  | fn env param body => exact derived_nodes_node (.fn env param body) (by simp)
  | index place => exact derived_nodes_node (.index place) (by simp)
  | varTop env name value => exact derived_nodes_node (.varTop env name value) (by simp)
  | varBelow other premise below =>
    exact derived_nodes_node (.varBelow other premise) (by simpa using below)
  | letIn bound result first second =>
    exact derived_nodes_node (.letIn bound result) (by simpa using ⟨first, second⟩)
  | letRec result above => exact derived_nodes_node (.letRec result) (by simpa using above)
  | app callee operand enters result first second third =>
    exact derived_nodes_node (.app callee operand enters result)
      (by simpa using ⟨first, second, third⟩)
  | operator left number right number' exact first second =>
    exact derived_nodes_node (.operator left number right number' exact)
      (by simpa using ⟨first, second⟩)
  | operandLeft left faulty first =>
    exact derived_nodes_node (.operandLeft left faulty) (by simpa using first)
  | operandRight left number right faulty _ second =>
    exact derived_nodes_node (.operandRight left number right faulty) (by simpa using second)
  | branch test truth result named first second =>
    exact derived_nodes_node (.branch test truth result named) (by simpa using ⟨first, second⟩)
  | condition test faulty first =>
    exact derived_nodes_node (.condition test faulty) (by simpa using first)

/-- The conclusion alone tells style and environment, or the style makes no difference. -/
theorem Derives.again (h : Derives style env e d) :
    Derives d.conclusion.style (d.conclusion.env.getD .empty) d.conclusion.expr d := by
  rw [h.conclusion_eq]
  cases env with
  | empty => cases style <;> exact h
  | push env name value =>
    have bound : env.push name value ≠ .empty := by simp
    have turned := h.inStyle .turnstile
    rw [h.inStyle_eq bound] at turned
    rw [style.written_of_ne_empty bound]
    exact turned

/-- Every node of a derivation, with what stands above it, is the proof of its own conclusion. -/
theorem proveJudgment_nodes {bound : Nat} (found : infer bound style env e = .ok d) :
    ∀ node ∈ d.nodes, ∃ bound, proveJudgment bound node.conclusion = .ok node := by
  intro node member
  obtain ⟨env, e, h⟩ := (Derives.of_infer found).nodes node member
  exact proveJudgment_iff_derives.2 ⟨h.again, rfl⟩

/-- `let x = true in let y = 1 in x`, without a turnstile. The variable is found below `y`, where
the environment is no longer left out. -/
theorem proveJudgment_nodes_below :
    let x := Env.empty.push "x" (.bool true)
    let y := x.push "y" (.int 1)
    let found := conclude .bare x (.var "x") (.bool true) .varTop []
    let inner := conclude .bare x (.letIn "y" (.int 1) (.var "x")) (.bool true) .letIn
      [.derivation (conclude .bare x (.int 1) (.int 1) .int []),
        .derivation (conclude .bare y (.var "x") (.bool true) .varBelow [.derivation found])]
    let d := conclude .bare .empty (.letIn "x" (.bool true) (.letIn "y" (.int 1) (.var "x")))
      (.bool true) .letIn
      [.derivation (conclude .bare .empty (.bool true) (.bool true) .bool []), .derivation inner]
    infer 3 .bare .empty (.letIn "x" (.bool true) (.letIn "y" (.int 1) (.var "x"))) = .ok d ∧
      found ∈ d.nodes ∧
      ∃ bound, proveJudgment bound ⟨some x, .var "x", .bool true⟩ = .ok found := by
  intro x y found inner d
  have inferred :
      infer 3 .bare .empty (.letIn "x" (.bool true) (.letIn "y" (.int 1) (.var "x"))) = .ok d := rfl
  have member : found ∈ d.nodes := by
    simp [d, inner, found, conclude, Derivation.nodes_node]
  exact ⟨inferred, member, proveJudgment_nodes inferred found member⟩

end ErrorML
