import ErrorML.Proofs.Calculus

namespace ErrorML

variable {style : Style} {env : Env} {e : Expr} {d : Derivation Rule}

def Expr.ErrorFree : Expr → Prop
  | .error => False
  | .int _ | .bool _ | .var _ | .index _ => True
  | .binary _ left right => left.ErrorFree ∧ right.ErrorFree
  | .ite condition thenBranch elseBranch =>
    condition.ErrorFree ∧ thenBranch.ErrorFree ∧ elseBranch.ErrorFree
  | .letIn _ bound body | .letRec _ bound body => bound.ErrorFree ∧ body.ErrorFree
  | .fn _ body => body.ErrorFree
  | .app function argument => function.ErrorFree ∧ argument.ErrorFree

mutual

/-- The value is not `error`, and no closure in it has captured the value or has the literal in its
body. -/
def Value.ErrorFree : Value → Prop
  | .error => False
  | .int _ | .bool _ => True
  | .closure env function | .recClosure env _ function => env.ErrorFree ∧ function.body.ErrorFree

def Env.ErrorFree : Env → Prop
  | .empty => True
  | .push env _ value => env.ErrorFree ∧ value.ErrorFree

end

mutual

/-- The value is `error`, or a closure that has captured it, at any nesting. -/
inductive Value.HoldsError : Value → Prop where
  | error : Value.HoldsError .error
  | closure {env : Env} {function : Function} (captured : Env.HoldsError env) :
      Value.HoldsError (.closure env function)
  | recClosure {env : Env} {name : String} {function : Function} (captured : Env.HoldsError env) :
      Value.HoldsError (.recClosure env name function)

inductive Env.HoldsError : Env → Prop where
  | newest {env : Env} {name : String} {value : Value} (holds : Value.HoldsError value) :
      Env.HoldsError (env.push name value)
  | older {env : Env} {name : String} {value : Value} (holds : Env.HoldsError env) :
      Env.HoldsError (env.push name value)

end

theorem Value.not_errorFree_error : ¬Value.error.ErrorFree := by
  rw [Value.ErrorFree]
  exact not_false

mutual

theorem Value.ErrorFree.not_holdsError : {v : Value} → v.ErrorFree → ¬v.HoldsError
  | .error, free, _ => Value.not_errorFree_error free
  | .closure _ _, free, .closure captured => by
    rw [Value.ErrorFree] at free
    exact free.1.not_holdsError captured
  | .recClosure _ _ _, free, .recClosure captured => by
    rw [Value.ErrorFree] at free
    exact free.1.not_holdsError captured

theorem Env.ErrorFree.not_holdsError : {env : Env} → env.ErrorFree → ¬env.HoldsError
  | .push _ _ _, free, .newest holds => by
    rw [Env.ErrorFree] at free
    exact free.2.not_holdsError holds
  | .push _ _ _, free, .older holds => by
    rw [Env.ErrorFree] at free
    exact free.1.not_holdsError holds

end

theorem Env.ErrorFree.mem (free : env.ErrorFree) {name : String} {v : Value}
    (member : (name, v) ∈ env.toList) : v.ErrorFree := by
  induction env with
  | empty => cases member
  | push env bound value ih =>
    rw [ErrorFree] at free
    cases member with
    | head => exact free.2
    | tail _ member => exact ih free.1 member

theorem Value.Enters.errorFree {callee argument : Value} {rule : Rule} {bodyEnv : Env} {body : Expr}
    (h : callee.Enters argument rule bodyEnv body) (closure : callee.ErrorFree)
    (operand : argument.ErrorFree) : bodyEnv.ErrorFree ∧ body.ErrorFree := by
  cases h with
  | closure captured param body =>
    rw [Value.ErrorFree] at closure
    rw [Env.ErrorFree]
    exact ⟨⟨closure.1, operand⟩, closure.2⟩
  | recClosure captured self param body =>
    have itself := closure
    rw [Value.ErrorFree] at closure
    rw [Env.ErrorFree, Env.ErrorFree]
    exact ⟨⟨⟨closure.1, itself⟩, operand⟩, closure.2⟩

theorem Fact.Exact.errorFree {op : Operator} {m n : Int64} {fact : Fact} {value : Value}
    (h : fact.Exact op m n value) : value.ErrorFree := by
  cases h <;> simp only [Value.ErrorFree]

/-- The rules that give `error` although no premise does. -/
def Rule.raisesError : Rule → Bool
  | .operand _ .boolLeft | .operand _ .boolRight | .ifInt => true
  | _ => false

def Derivation.Causeless (d : Derivation Rule) : Prop :=
  ∀ node ∈ d.nodes, node.rule.raisesError = false

theorem causeless_node_iff {conclusion : Judgment} {rule : Rule}
    {premises : List (Premise Rule)} :
    (Derivation.node conclusion rule premises).Causeless ↔
      rule.raisesError = false ∧ ∀ d, .derivation d ∈ premises → d.Causeless :=
  Derivation.forall_nodes_node

theorem Fault.OfLeft.raisesError {value : Value} {fault : Fault} (faulty : OfLeft value fault)
    (op : Operator) (free : value.ErrorFree) : (Rule.operand op fault).raisesError = true := by
  cases faulty with
  | bool b => rfl
  | error => exact absurd free Value.not_errorFree_error

theorem Fault.OfRight.raisesError {value : Value} {fault : Fault} (faulty : OfRight value fault)
    (op : Operator) (free : value.ErrorFree) : (Rule.operand op fault).raisesError = true := by
  cases faulty with
  | bool b => rfl
  | error => exact absurd free Value.not_errorFree_error

theorem ConditionFault.raisesError {value : Value} {rule : Rule}
    (faulty : ConditionFault value rule) (free : value.ErrorFree) : rule.raisesError = true := by
  cases faulty with
  | int n => rfl
  | error => exact absurd free Value.not_errorFree_error

theorem Derives.errorFree (h : Derives style env e d) (clean : env.ErrorFree)
    (literals : e.ErrorFree) (causeless : d.Causeless) : d.value.ErrorFree := by
  induction h with
  | int | bool => simp only [Derivation.value_node, Value.ErrorFree]
  | error => exact literals.elim
  | fn env param body =>
    simp only [Derivation.value_node, Value.ErrorFree]
    exact ⟨clean, literals⟩
  | index place => exact clean.mem (List.mem_of_getElem? place)
  | varTop env name value =>
    rw [Env.ErrorFree] at clean
    exact clean.2
  | varBelow other _ below =>
    rw [Env.ErrorFree] at clean
    have parts := (causeless_node_iff.1 causeless).2
    exact below clean.1 literals (parts _ (by simp))
  | letIn _ _ bound result =>
    obtain ⟨definition, body⟩ := literals
    have parts := (causeless_node_iff.1 causeless).2
    apply result _ body (parts _ (by simp))
    rw [Env.ErrorFree]
    exact ⟨clean, bound clean definition (parts _ (by simp))⟩
  | letRec _ result =>
    obtain ⟨definition, body⟩ := literals
    have parts := (causeless_node_iff.1 causeless).2
    apply result _ body (parts _ (by simp))
    rw [Env.ErrorFree, Value.ErrorFree]
    exact ⟨clean, clean, definition⟩
  | app _ _ enters _ callee operand result =>
    obtain ⟨function, argument⟩ := literals
    have parts := (causeless_node_iff.1 causeless).2
    have closure := callee clean function (parts _ (by simp))
    obtain ⟨bodyClean, body⟩ :=
      enters.errorFree closure (operand clean argument (parts _ (by simp)))
    exact result bodyClean body (parts _ (by simp))
  | operator _ _ _ _ exact => exact exact.errorFree
  | @operandLeft _ op _ _ _ _ _ faulty first =>
    obtain ⟨quiet, parts⟩ := causeless_node_iff.1 causeless
    have raises := faulty.raisesError op (first clean literals.1 (parts _ (by simp)))
    rw [quiet] at raises
    cases raises
  | @operandRight _ op _ _ _ _ _ _ _ _ _ faulty _ second =>
    -- Only the right operand is a premise, and only it can be at fault.
    obtain ⟨quiet, parts⟩ := causeless_node_iff.1 causeless
    have raises := faulty.raisesError op (second clean literals.2 (parts _ (by simp)))
    rw [quiet] at raises
    cases raises
  | @branch _ _ _ _ taken _ _ _ _ _ _ _ _ result =>
    obtain ⟨-, yes, no⟩ := literals
    have parts := (causeless_node_iff.1 causeless).2
    cases taken with
    | true => exact result clean yes (parts _ (by simp))
    | false => exact result clean no (parts _ (by simp))
  | condition _ faulty test =>
    obtain ⟨quiet, parts⟩ := causeless_node_iff.1 causeless
    have raises := faulty.raisesError (test clean literals.1 (parts _ (by simp)))
    rw [quiet] at raises
    cases raises

/-- In a program that starts without errors, an error in the value that is derived, also one that a
closure has captured, has a cause that stands in the derivation. -/
theorem exists_cause_of_holdsError {bound : Nat} (clean : env.ErrorFree) (literals : e.ErrorFree)
    (found : infer bound style env e = .ok d) (holds : d.value.HoldsError) :
    ∃ node ∈ d.nodes, node.rule.raisesError = true := by
  apply Classical.byContradiction
  intro none
  have causeless : d.Causeless := fun node member =>
    Bool.eq_false_iff.2 fun raises => none ⟨node, member, raises⟩
  exact ((Derives.of_infer found).errorFree clean literals causeless).not_holdsError holds

/-- `let f = fun x -> x < true in let y = 1 + f 2 in fun z -> y`. The sum drops the derivation of
`1` and passes on the error of the comparison, which the closure captures. -/
theorem exists_cause_of_holdsError_captured :
    let f := Value.closure .empty ⟨"x", .binary .less (.var "x") (.bool true)⟩
    let e := Expr.letIn "f" (.fn "x" (.binary .less (.var "x") (.bool true)))
      (.letIn "y" (.binary .plus (.int 1) (.app (.var "f") (.int 2))) (.fn "z" (.var "y")))
    ∃ d, infer 6 .turnstile .empty e = .ok d ∧
      d.value = .closure ((Env.empty.push "f" f).push "y" .error) ⟨"z", .var "y"⟩ ∧
      ∃ node ∈ d.nodes, node.rule.raisesError = true := by
  intro f e
  have inferred : (infer 6 .turnstile .empty e >>= fun d => .ok d.value) =
      .ok (.closure ((Env.empty.push "f" f).push "y" .error) ⟨"z", .var "y"⟩) := by decide +kernel
  obtain ⟨d, found, value⟩ := Outcome.bind_eq_ok.1 inferred
  have value := Outcome.ok.inj value
  have clean : Env.empty.ErrorFree := by simp only [Env.ErrorFree]
  have literals : e.ErrorFree := by simp [e, Expr.ErrorFree]
  have holds : d.value.HoldsError := value ▸ .closure (.newest .error)
  exact ⟨d, found, value, exists_cause_of_holdsError clean literals found holds⟩

end ErrorML
