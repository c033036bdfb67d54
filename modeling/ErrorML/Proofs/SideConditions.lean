import ErrorML.Inference

/-!
# Side conditions of the rules

What the rules ask of the values of their premises, as relations. Strict evaluation and inference
compute with functions instead, and each lemma ties one of these to its relation.
-/

namespace ErrorML

/-! ## Arithmetic -/

/-- The fact states the exact result of the operator at two numbers, which is the value. -/
inductive Fact.Exact : Operator → Int64 → Int64 → Fact → Value → Prop where
  | plus {m n result : Int64} (sum : result.toInt = m.toInt + n.toInt) :
      Exact .plus m n (.plus m n result) (.int result)
  | minus {m n result : Int64} (difference : result.toInt = m.toInt - n.toInt) :
      Exact .minus m n (.minus m n result) (.int result)
  | times {m n result : Int64} (product : result.toInt = m.toInt * n.toInt) :
      Exact .times m n (.times m n result) (.int result)
  | less {m n : Int64} {result : Bool} (comparison : result = true ↔ m.toInt < n.toInt) :
      Exact .less m n (.less m n result) (.bool result)

theorem Fact.exact_iff {op : Operator} {m n : Int64} {fact : Fact} {value : Value} :
    fact.Exact op m n value ↔ compute? op m n = some fact ∧ fact.value = value := by
  constructor
  · intro h
    cases h with
    | plus sum => exact ⟨Option.map_eq_some_iff.2 ⟨_, int64?_eq_some_iff.2 sum, rfl⟩, rfl⟩
    | minus difference =>
      exact ⟨Option.map_eq_some_iff.2 ⟨_, int64?_eq_some_iff.2 difference, rfl⟩, rfl⟩
    | times product => exact ⟨Option.map_eq_some_iff.2 ⟨_, int64?_eq_some_iff.2 product, rfl⟩, rfl⟩
    | less comparison =>
      rename_i result
      have same : decide (m.toInt < n.toInt) = result := by
        rw [Bool.eq_iff_iff, decide_eq_true_iff, comparison]
      exact ⟨by rw [compute?_less, same], rfl⟩
  · rintro ⟨h, rfl⟩
    cases op with
    | plus =>
      obtain ⟨result, value, rfl⟩ := Option.map_eq_some_iff.1 h
      exact .plus (int64?_eq_some_iff.1 value)
    | minus =>
      obtain ⟨result, value, rfl⟩ := Option.map_eq_some_iff.1 h
      exact .minus (int64?_eq_some_iff.1 value)
    | times =>
      obtain ⟨result, value, rfl⟩ := Option.map_eq_some_iff.1 h
      exact .times (int64?_eq_some_iff.1 value)
    | less =>
      rw [compute?_less, Option.some.injEq] at h
      subst h
      exact .less decide_eq_true_iff

/-! ## Operands -/

inductive Fault.OfLeft : Value → Fault → Prop where
  | bool (b : Bool) : OfLeft (.bool b) .boolLeft
  | error : OfLeft .error .errorLeft

inductive Fault.OfRight : Value → Fault → Prop where
  | bool (b : Bool) : OfRight (.bool b) .boolRight
  | error : OfRight .error .errorRight

theorem Fault.ofLeft?_eq_some_iff {value : Value} {fault : Fault} :
    ofLeft? value = some fault ↔ OfLeft value fault := by
  constructor
  · intro h
    cases value <;> cases h <;> constructor
  · intro h
    cases h <;> rfl

theorem Fault.ofRight?_eq_some_iff {value : Value} {fault : Fault} :
    ofRight? value = some fault ↔ OfRight value fault := by
  constructor
  · intro h
    cases value <;> cases h <;> constructor
  · intro h
    cases h <;> rfl

theorem Value.asInt?_eq_some_iff {value : Value} {n : Int64} :
    value.asInt? = some n ↔ value = .int n := by
  cases value <;> simp [asInt?]

theorem applyOperator_eq_ok_iff {op : Operator} {left right value : Value} :
    applyOperator op left right = .ok value ↔
      ∃ m n fact, left = .int m ∧ right = .int n ∧ Fact.Exact op m n fact value := by
  constructor
  · intro h
    unfold applyOperator at h
    split at h
    · cases h
    · split at h
      · rename_i m n _
        split at h
        · rename_i fact computed
          cases h
          exact ⟨m, n, fact, rfl, rfl, Fact.exact_iff.2 ⟨computed, rfl⟩⟩
        · cases h
      · cases h
  · rintro ⟨m, n, fact, rfl, rfl, exact⟩
    obtain ⟨computed, rfl⟩ := Fact.exact_iff.1 exact
    simp [applyOperator, Fault.classify?, Fault.ofRight?, computed]

theorem applyOperator_eq_overflow {op : Operator} {m n : Int64}
    (large : Fact.compute? op m n = none) :
    applyOperator op (.int m) (.int n) = .error (.stuck (.overflow op m n)) := by
  simp [applyOperator, Fault.classify?, Fault.ofRight?, large]

/-! ## Conditions -/

inductive BranchRule : Bool → Value → Rule → Prop where
  | ifTrue {value : Value} (ordinary : value ≠ .error) : BranchRule true value .ifTrue
  | ifTrueError : BranchRule true .error .ifTrueError
  | ifFalse {value : Value} (ordinary : value ≠ .error) : BranchRule false value .ifFalse
  | ifFalseError : BranchRule false .error .ifFalseError

inductive ConditionFault : Value → Rule → Prop where
  | int (n : Int64) : ConditionFault (.int n) .ifInt
  | error : ConditionFault .error .ifError

theorem branchRule_of_ne {taken : Bool} {value : Value} (ordinary : value ≠ .error) :
    branchRule taken value = if taken then .ifTrue else .ifFalse := by
  cases taken <;> cases value <;> simp_all [branchRule]

theorem branchRule_eq_iff {taken : Bool} {value : Value} {rule : Rule} :
    branchRule taken value = rule ↔ BranchRule taken value rule := by
  constructor
  · rintro rfl
    by_cases h : value = .error
    · subst h
      cases taken
      · exact .ifFalseError
      · exact .ifTrueError
    · rw [branchRule_of_ne h]
      cases taken
      · exact .ifFalse h
      · exact .ifTrue h
  · intro h
    cases h with
    | ifTrue ordinary => exact branchRule_of_ne ordinary
    | ifFalse ordinary => exact branchRule_of_ne ordinary
    | ifTrueError => rfl
    | ifFalseError => rfl

/-! ## Application -/

/-- A closure is applied to an argument by a rule: its body runs in the captured environment with
the parameter on top, and with the closure itself below that if it may call itself. -/
inductive Value.Enters : Value → Value → Rule → Env → Expr → Prop where
  | closure (captured : Env) (param : String) (body : Expr) (argument : Value) :
      Enters (.closure captured ⟨param, body⟩) argument .app (captured.push param argument) body
  | recClosure (captured : Env) (self param : String) (body : Expr) (argument : Value) :
      Enters (.recClosure captured self ⟨param, body⟩) argument .appRec
        ((captured.push self (.recClosure captured self ⟨param, body⟩)).push param argument) body

theorem Value.enter?_eq_some_iff {callee argument : Value} {env : Env} {body : Expr} :
    callee.enter? argument = some (env, body) ↔
      callee.Enters argument (applicationRule callee) env body := by
  constructor
  · intro h
    cases callee <;> cases h <;> constructor
  · intro h
    cases h <;> rfl

theorem Value.Enters.rule_eq {callee argument : Value} {rule : Rule} {env : Env} {body : Expr}
    (h : callee.Enters argument rule env body) : applicationRule callee = rule := by
  cases h <;> rfl

/-! ## Variables -/

theorem Env.nth?_eq_some_iff {env : Env} {index : Nat} {value : Value} :
    env.nth? index = some value ↔
      ∃ position name, index = position + 1 ∧ env.toList[position]? = some (name, value) := by
  cases index with
  | zero => simp
  | succ position =>
    rw [nth?_eq, Option.map_eq_some_iff]
    constructor
    · rintro ⟨⟨name, found⟩, place, rfl⟩
      exact ⟨position, name, rfl, place⟩
    · rintro ⟨_, name, same, place⟩
      cases same
      exact ⟨(name, value), place, rfl⟩

end ErrorML
