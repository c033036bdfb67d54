import ErrorML.Proofs.FaultFree

namespace ErrorML

variable {style : Style} {env : Env} {op : Operator} {v v₁ v₂ : Value} {err : EvalError}

inductive OperatorFails (op : Operator) : Value → Value → EvalError → Prop where
  | left {v₁ v₂ : Value} {fault : Fault} (faulty : Fault.OfLeft v₁ fault) :
      OperatorFails op v₁ v₂ (.operand op fault v₁ v₂)
  | right {m : Int64} {v₂ : Value} {fault : Fault} (faulty : Fault.OfRight v₂ fault) :
      OperatorFails op (.int m) v₂ (.operand op fault (.int m) v₂)
  | closureLeft {v₁ v₂ : Value} (closure : v₁.isClosure = true) :
      OperatorFails op v₁ v₂ (.stuck (.closureOperand op))
  | closureRight {m : Int64} {v₂ : Value} (closure : v₂.isClosure = true) :
      OperatorFails op (.int m) v₂ (.stuck (.closureOperand op))
  | overflow {m n : Int64} (large : Fact.compute? op m n = none) :
      OperatorFails op (.int m) (.int n) (.stuck (.overflow op m n))

theorem OperatorFails.of_applyOperator (h : applyOperator op v₁ v₂ = .error err) :
    OperatorFails op v₁ v₂ err := by
  cases v₁ with
  | bool b =>
    cases h
    exact .left (.bool b)
  | error =>
    cases h
    exact .left .error
  | closure | recClosure =>
    cases h
    exact .closureLeft rfl
  | int m =>
    cases v₂ with
    | bool b =>
      cases h
      exact .right (.bool b)
    | error =>
      cases h
      exact .right .error
    | closure | recClosure =>
      cases h
      exact .closureRight rfl
    | int n =>
      simp only [applyOperator, Fault.classify?, Fault.ofRight?] at h
      split at h
      · cases h
      · rename_i large
        cases h
        exact .overflow large

inductive ConditionFails : Value → EvalError → Prop where
  | error : ConditionFails .error .conditionError
  | int (n : Int64) : ConditionFails (.int n) (.conditionNotBool (.int n))
  | closure {v : Value} (closure : v.isClosure = true) : ConditionFails v (.conditionNotBool v)

variable {left right condition thenBranch elseBranch : Expr}

theorem Evaluates.operator_fails {bound : Nat} (first : Evaluates env left v₁)
    (second : Evaluates env right v₂)
    (stops : evaluate bound env (.binary op left right) = .error err) :
    OperatorFails op v₁ v₂ err := by
  obtain ⟨b₁, first⟩ := first.returns
  obtain ⟨b₂, second⟩ := second.returns
  -- The error stays under a larger bound, under which both operands have their values.
  have le : bound ≤ bound + max b₁ b₂ + 1 := by omega
  have later := (evaluate_mono le env (.binary op left right)).eq_error stops
  rw [evaluate_binary (first _ (by omega)) (second _ (by omega))] at later
  exact .of_applyOperator (Outcome.ofExcept_eq_error.1 later)

theorem Evaluates.condition_fails {bound : Nat} (test : Evaluates env condition v)
    (other : ∀ b, v ≠ .bool b)
    (stops : evaluate bound env (.ite condition thenBranch elseBranch) = .error err) :
    ConditionFails v err := by
  obtain ⟨b, test⟩ := test.returns
  have le : bound ≤ bound + b + 1 := by omega
  have later := (evaluate_mono le env (.ite condition thenBranch elseBranch)).eq_error stops
  simp only [evaluate, test (bound + b) (by omega), Outcome.ok_bind] at later
  cases v with
  | bool b => exact absurd rfl (other b)
  | error =>
    cases later
    exact .error
  | int n =>
    cases later
    exact .int n
  | closure | recClosure =>
    cases later
    exact .closure rfl

/-- A derivation goes on from where strict evaluation stops by the rule that the error names. If it
names none, the derivation gets stuck for the same reason. -/
def EvalError.Noticed (style : Style) (env : Env) (e : Expr) (err : EvalError) : Prop :=
  (∀ rule, err.rule? = some rule →
    ∃ bound d, infer bound style env e = .ok d ∧ d.rule = rule ∧ d.value = .error) ∧
  (err.rule? = none →
    ∃ bound reason, err = .stuck reason ∧ infer bound style env e = .error (.stuck reason))

theorem Derives.noticed {e : Expr} {d : Derivation Rule} (h : Derives style env e d)
    (named : err.rule? = some d.rule) (value : d.value = .error) : err.Noticed style env e := by
  obtain ⟨bound, found⟩ := infer_ok_iff.2 h
  refine ⟨fun rule other => ?_, fun none => ?_⟩
  · rw [named] at other
    exact ⟨bound, d, found, Option.some.inj other, value⟩
  · rw [named] at none
    cases none

theorem Stuck.noticed {e : Expr} {reason : Stuck}
    (h : ∃ bound, infer bound style env e = .error (.stuck reason)) :
    EvalError.Noticed style env e (.stuck reason) := by
  obtain ⟨bound, h⟩ := h
  exact ⟨fun rule named => (nomatch named), fun _ => ⟨bound, reason, rfl, h⟩⟩

theorem Fault.ofLeft?_of_isClosure (closure : v.isClosure = true) : ofLeft? v = none := by
  cases v <;> cases closure <;> rfl

theorem Fault.ofRight?_of_isClosure (closure : v.isClosure = true) : ofRight? v = none := by
  cases v <;> cases closure <;> rfl

theorem Value.asInt?_of_isClosure (closure : v.isClosure = true) : v.asInt? = none := by
  cases v <;> cases closure <;> rfl

variable {d₁ d₂ : Derivation Rule}

theorem Derives.operator_noticed (first : Derives style env left d₁)
    (second : Derives style env right d₂) (fails : OperatorFails op d₁.value d₂.value err) :
    err.Noticed style env (.binary op left right) := by
  obtain ⟨b₁, found⟩ := first.returns
  obtain ⟨b₂, found'⟩ := second.returns
  have found := found (max b₁ b₂) (by omega)
  have found' := found' (max b₁ b₂) (by omega)
  generalize number : d₁.value = v₁, number' : d₂.value = v₂ at fails
  cases fails with
  | left faulty => exact (first.operandLeft (number ▸ faulty)).noticed rfl rfl
  | right faulty => exact (first.operandRight number second (number' ▸ faulty)).noticed rfl rfl
  | closureLeft closure =>
    refine Stuck.noticed ⟨max b₁ b₂ + 1, ?_⟩
    simp only [infer, found, Outcome.ok_bind, number, Fault.ofLeft?_of_isClosure closure,
      Value.asInt?_of_isClosure closure]
  | closureRight closure =>
    refine Stuck.noticed ⟨max b₁ b₂ + 1, ?_⟩
    simp only [infer, found, Outcome.ok_bind, number, Fault.ofLeft?, Value.asInt?_int, found',
      number', Fault.ofRight?_of_isClosure closure, Value.asInt?_of_isClosure closure]
  | overflow large =>
    refine Stuck.noticed ⟨max b₁ b₂ + 1, ?_⟩
    rw [infer_binary found number found' number', large]
    rfl

theorem Derives.condition_noticed (test : Derives style env condition d₁)
    (fails : ConditionFails d₁.value err) (open_ : d₁.value.isClosure = false) :
    err.Noticed style env (.ite condition thenBranch elseBranch) := by
  generalize value : d₁.value = v at fails open_
  cases fails with
  | error => exact (test.condition (value ▸ .error)).noticed rfl rfl
  | int n => exact (test.condition (value ▸ .int n)).noticed rfl rfl
  | closure closure =>
    rw [open_] at closure
    cases closure

theorem Derives.closure_condition (test : Derives style env condition d₁)
    (closure : d₁.value.isClosure = true) :
    ∃ bound, infer bound style env (.ite condition thenBranch elseBranch) =
      .error .closureCondition := by
  obtain ⟨bound, found⟩ := infer_ok_iff.2 test
  refine ⟨bound + 1, ?_⟩
  simp only [infer, found, Outcome.ok_bind]
  generalize d₁.value = v at closure
  cases v with
  | int | bool | error => cases closure
  | closure | recClosure => rfl

theorem OperatorFails.reason_eq {reason : Stuck} (h : OperatorFails op v₁ v₂ (.stuck reason)) :
    reason = .closureOperand op ∨ ∃ m n, reason = .overflow op m n := by
  cases h with
  | closureLeft | closureRight => exact .inl rfl
  | @overflow m n => exact .inr ⟨m, n, rfl⟩

/-- Where an operator stops strict evaluation although both operands have values, a derivation goes
on by the rule that the error names, or gets stuck with it. So it is for conditions that are neither
truth values nor closures. A closure as a condition is reported under the rule for numbers, although
a derivation gets stuck there. -/
theorem evaluate_error_noticed (style : Style) (env : Env) :
    (∀ op left right v₁ v₂ err, (∃ bound, evaluate bound env left = .ok v₁) →
      (∃ bound, evaluate bound env right = .ok v₂) →
      (∃ bound, evaluate bound env (.binary op left right) = .error err) →
      err.Noticed style env (.binary op left right) ∧
        ∀ reason, err = .stuck reason →
          reason = .closureOperand op ∨ ∃ m n, reason = .overflow op m n) ∧
    ∀ condition thenBranch elseBranch v err, (∃ bound, evaluate bound env condition = .ok v) →
      (∀ b, v ≠ .bool b) →
      (∃ bound, evaluate bound env (.ite condition thenBranch elseBranch) = .error err) →
      (v.isClosure = false → err.rule? ≠ none ∧
        err.Noticed style env (.ite condition thenBranch elseBranch)) ∧
      (v.isClosure = true → err.rule? = some .ifInt ∧
        ∃ bound, infer bound style env (.ite condition thenBranch elseBranch) =
          .error .closureCondition) := by
  constructor
  · rintro op left right v₁ v₂ err ⟨b₁, first⟩ ⟨b₂, second⟩ ⟨bound, stops⟩
    have first := Evaluates.of_evaluate first
    have second := Evaluates.of_evaluate second
    have fails := first.operator_fails second stops
    obtain ⟨d₁, left, rfl, -⟩ := first.derives
    obtain ⟨d₂, right, rfl, -⟩ := second.derives
    refine ⟨left.operator_noticed right fails, ?_⟩
    rintro reason rfl
    exact fails.reason_eq
  · rintro condition thenBranch elseBranch v err ⟨b, test⟩ other ⟨bound, stops⟩
    have test := Evaluates.of_evaluate test
    have fails := test.condition_fails other stops
    have named : err.rule? ≠ none := by
      cases fails <;> simp [EvalError.rule?]
    have number : v.isClosure = true → err.rule? = some .ifInt := by
      intro closure
      cases fails with
      | error => cases closure
      | int | closure => rfl
    obtain ⟨d, test, rfl, -⟩ := test.derives
    exact ⟨fun ground => ⟨named, test.condition_noticed fails ground⟩,
      fun closure => ⟨number closure, test.closure_condition closure⟩⟩

theorem evaluate_error_noticed_bool_right :
    let env := Env.empty.push "f" (.closure .empty ⟨"x", .binary .less (.var "x") (.int 2)⟩)
    let call := Expr.app (.var "f") (.int 1)
    let two := Expr.binary .plus (.int 1) (.int 1)
    let err := EvalError.operand .times .boolRight (.int 3) (.bool true)
    evaluate 3 env call = .ok (.bool true) ∧
      evaluate 4 env (.binary .times (.int 3) call) = .error err ∧
      err.Noticed .turnstile env (.binary .times (.int 3) call) ∧
      evaluate 2 env two = .ok (.int 2) ∧
      evaluate 3 env (.ite two (.int 0) (.int 0)) = .error (.conditionNotBool (.int 2)) ∧
      (EvalError.conditionNotBool (.int 2)).Noticed .turnstile env
        (.ite two (.int 0) (.int 0)) := by
  intro env call two err
  have called : evaluate 3 env call = .ok (.bool true) := by decide +kernel
  have stops : evaluate 4 env (.binary .times (.int 3) call) = .error err := by decide +kernel
  have sum : evaluate 2 env two = .ok (.int 2) := by decide +kernel
  have undecided : evaluate 3 env (.ite two (.int 0) (.int 0)) =
      .error (.conditionNotBool (.int 2)) := by decide +kernel
  have operator := (evaluate_error_noticed .turnstile env).1 _ _ _ _ _ err ⟨1, rfl⟩ ⟨3, called⟩
    ⟨4, stops⟩
  have condition := (evaluate_error_noticed .turnstile env).2 _ _ _ _ _ ⟨2, sum⟩ (by simp)
    ⟨3, undecided⟩
  exact ⟨called, stops, operator.1, sum, undecided, (condition.1 rfl).2⟩

/-- `if fun x -> x then 1 else 2`: the error names the rule for numbers, and nothing is derived. -/
theorem evaluate_closure_condition :
    let condition := Expr.fn "x" (.var "x")
    let closure := Value.closure .empty ⟨"x", .var "x"⟩
    let err := EvalError.conditionNotBool closure
    evaluate 1 .empty condition = .ok closure ∧
      evaluate 2 .empty (.ite condition (.int 1) (.int 2)) = .error err ∧
      err.rule? = some .ifInt ∧
      ∀ bound d, infer bound .turnstile .empty (.ite condition (.int 1) (.int 2)) ≠ .ok d := by
  refine ⟨rfl, rfl, rfl, fun bound d found => ?_⟩
  cases Derives.of_infer found with
  | branch test truth =>
    cases test
    cases truth
  | condition test faulty =>
    cases test
    cases faulty

end ErrorML
