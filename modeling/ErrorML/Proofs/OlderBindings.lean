import ErrorML.Proofs.FaultFree

/-!
# Older bindings

A program finds its bindings from the newest one down, and one that works comes to a stop before
the oldest. Bindings that are put beneath all others are never reached. Closures capture them
nonetheless, and they show in judgments, so that the values and derivations of two such runs are one
only up to what lies beneath captured environments.
-/

namespace ErrorML

/-! ## Environments on top of others -/

def Env.onto : Env → Env → Env
  | .empty, older => older
  | .push env name value, older => (env.onto older).push name value

mutual

/-- Values that are one but for bindings beneath the environments that closures have captured. -/
inductive Value.Deepens : Value → Value → Prop where
  | int (n : Int64) : Value.Deepens (.int n) (.int n)
  | bool (b : Bool) : Value.Deepens (.bool b) (.bool b)
  | error : Value.Deepens .error .error
  | closure {env env' : Env} (function : Function) (captured : Env.Deepens env env') :
      Value.Deepens (.closure env function) (.closure env' function)
  | recClosure {env env' : Env} (name : String) (function : Function)
      (captured : Env.Deepens env env') :
      Value.Deepens (.recClosure env name function) (.recClosure env' name function)

inductive Env.Deepens : Env → Env → Prop where
  | empty (older : Env) : Env.Deepens .empty older
  | push {env env' : Env} (name : String) {value value' : Value} (older : Env.Deepens env env')
      (newest : Value.Deepens value value') :
      Env.Deepens (env.push name value) (env'.push name value')

end

mutual

theorem Value.Deepens.refl : (value : Value) → value.Deepens value
  | .int n => .int n
  | .bool b => .bool b
  | .error => .error
  | .closure env function => .closure function (Env.Deepens.refl env)
  | .recClosure env name function => .recClosure name function (Env.Deepens.refl env)

theorem Env.Deepens.refl : (env : Env) → env.Deepens env
  | .empty => .empty .empty
  | .push env name value => .push name (Env.Deepens.refl env) (Value.Deepens.refl value)

end

theorem Env.deepens_onto (env older : Env) : env.Deepens (env.onto older) := by
  induction env with
  | empty => exact .empty older
  | push env name value ih => exact .push name ih (.refl value)

variable {style : Style} {env env' : Env} {e : Expr} {value value' : Value} {d d' : Derivation Rule}

theorem Value.Deepens.eq (h : value.Deepens value') (ground : value.isClosure = false) :
    value' = value := by
  cases h with
  | int | bool | error => rfl
  | closure | recClosure => cases ground

theorem Env.Deepens.place (h : env.Deepens env') {position : Nat} {name : String}
    (place : env.toList[position]? = some (name, value)) :
    ∃ value', env'.toList[position]? = some (name, value') ∧ value.Deepens value' := by
  induction env generalizing env' position with
  | empty => cases place
  | push env bound newest ih =>
    cases h with
    | push _ older newest =>
      cases position with
      | zero =>
        cases place
        exact ⟨_, rfl, newest⟩
      | succ position => exact ih older place

/-! ## Side conditions -/

theorem Value.Enters.deepen {callee callee' argument argument' : Value} {rule : Rule}
    {bodyEnv : Env} {body : Expr} (enters : callee.Enters argument rule bodyEnv body)
    (closure : callee.Deepens callee') (operand : argument.Deepens argument') :
    ∃ bodyEnv', callee'.Enters argument' rule bodyEnv' body ∧ bodyEnv.Deepens bodyEnv' := by
  have itself := closure
  cases enters with
  | closure =>
    cases closure with
    | closure _ captured => exact ⟨_, .closure _ _ _ _, .push _ captured operand⟩
  | recClosure =>
    cases closure with
    | recClosure _ _ captured =>
      exact ⟨_, .recClosure _ _ _ _ _, .push _ (.push _ captured itself) operand⟩

theorem Fault.OfLeft.deepen {fault : Fault} (h : Fault.OfLeft value fault)
    (values : value.Deepens value') : Fault.OfLeft value' fault := by
  cases h <;> cases values <;> constructor

theorem Fault.OfRight.deepen {fault : Fault} (h : Fault.OfRight value fault)
    (values : value.Deepens value') : Fault.OfRight value' fault := by
  cases h <;> cases values <;> constructor

theorem ConditionFault.deepen {rule : Rule} (h : ConditionFault value rule)
    (values : value.Deepens value') : ConditionFault value' rule := by
  cases h <;> cases values <;> constructor

theorem BranchRule.deepen {taken : Bool} {rule : Rule} (h : BranchRule taken value rule)
    (values : value.Deepens value') : BranchRule taken value' rule := by
  have ordinary (h : value ≠ .error) : value' ≠ .error := by
    rintro rfl
    cases values
    exact h rfl
  cases h with
  | ifTrue other => exact .ifTrue (ordinary other)
  | ifFalse other => exact .ifFalse (ordinary other)
  | ifTrueError =>
    cases values
    exact .ifTrueError
  | ifFalseError =>
    cases values
    exact .ifFalseError

/-! ## Derivations of one shape -/

section Alike

variable {ρ : Type} {related related' : Judgment → Judgment → Prop}

mutual

/-- Derivations with the same rules and facts in the same places, and with related judgments. -/
inductive Derivation.Alike (related : Judgment → Judgment → Prop) :
    Derivation ρ → Derivation ρ → Prop where
  | node {conclusion conclusion' : Judgment} (rule : ρ) {premises premises' : List (Premise ρ)}
      (conclusions : related conclusion conclusion')
      (above : Premise.AllAlike related premises premises') :
      Derivation.Alike related (.node conclusion rule premises) (.node conclusion' rule premises')

inductive Premise.Alike (related : Judgment → Judgment → Prop) :
    Premise ρ → Premise ρ → Prop where
  | derivation {d d' : Derivation ρ} (alike : Derivation.Alike related d d') :
      Premise.Alike related (.derivation d) (.derivation d')
  | fact (f : Fact) : Premise.Alike related (.fact f) (.fact f)

inductive Premise.AllAlike (related : Judgment → Judgment → Prop) :
    List (Premise ρ) → List (Premise ρ) → Prop where
  | nil : Premise.AllAlike related [] []
  | cons {premise premise' : Premise ρ} {premises premises' : List (Premise ρ)}
      (first : Premise.Alike related premise premise')
      (others : Premise.AllAlike related premises premises') :
      Premise.AllAlike related (premise :: premises) (premise' :: premises')

end

mutual

theorem Derivation.Alike.mono (weaker : ∀ j j', related j j' → related' j j') :
    {d d' : Derivation ρ} → d.Alike related d' → d.Alike related' d'
  | _, _, .node rule conclusions above =>
    .node rule (weaker _ _ conclusions) (above.mono weaker)

theorem Premise.Alike.mono (weaker : ∀ j j', related j j' → related' j j') :
    {premise premise' : Premise ρ} → premise.Alike related premise' →
      premise.Alike related' premise'
  | _, _, .derivation alike => .derivation (alike.mono weaker)
  | _, _, .fact f => .fact f

theorem Premise.AllAlike.mono (weaker : ∀ j j', related j j' → related' j j') :
    {premises premises' : List (Premise ρ)} → Premise.AllAlike related premises premises' →
      Premise.AllAlike related' premises premises'
  | _, _, .nil => .nil
  | _, _, .cons first others => .cons (first.mono weaker) (others.mono weaker)

end

mutual

theorem Derivation.Alike.rules :
    {d d' : Derivation ρ} → d.Alike related d' →
      d.nodes.map Derivation.rule = d'.nodes.map Derivation.rule
  | _, _, .node rule _ above => by
    simp only [Derivation.nodes_node, List.map_cons, above.rules]
    rfl

theorem Premise.Alike.rules : {premise premise' : Premise ρ} → premise.Alike related premise' →
    premise.nodes.map Derivation.rule = premise'.nodes.map Derivation.rule
  | _, _, .derivation alike => by
    simpa only [Premise.nodes_derivation] using alike.rules
  | _, _, .fact f => by simp only [Premise.nodes_fact]

theorem Premise.AllAlike.rules : {premises premises' : List (Premise ρ)} →
    Premise.AllAlike related premises premises' →
      (Premise.nodesOf premises).map Derivation.rule =
        (Premise.nodesOf premises').map Derivation.rule
  | _, _, .nil => rfl
  | _, _, .cons first others => by
    simp only [Premise.nodesOf_cons, List.map_append, first.rules, others.rules]

end

end Alike

theorem Derivation.Alike.faultFree {related : Judgment → Judgment → Prop}
    (h : d.Alike related d') (free : d.FaultFree) : d'.FaultFree := by
  intro node member
  have named : node.rule ∈ d.nodes.map rule := h.rules ▸ List.mem_map_of_mem member
  obtain ⟨same, member', rule⟩ := List.mem_map.1 named
  rw [← rule]
  exact free same member'

/-! ## Runs above older bindings -/

structure Judgment.Deepens (j j' : Judgment) : Prop where
  expr : j'.expr = j.expr
  value : j.value.Deepens j'.value

theorem Derives.deepen (h : Derives style env e d) (envs : env.Deepens env') :
    ∃ d', Derives style env' e d' ∧ d.value.Deepens d'.value ∧ d.Alike Judgment.Deepens d' := by
  induction h generalizing env' with
  | int env n => exact ⟨_, .int env' n, .int n, .node _ ⟨rfl, .int n⟩ .nil⟩
  | bool env b => exact ⟨_, .bool env' b, .bool b, .node _ ⟨rfl, .bool b⟩ .nil⟩
  | error env => exact ⟨_, .error env', .error, .node _ ⟨rfl, .error⟩ .nil⟩
  | fn env param body =>
    exact ⟨_, .fn env' param body, .closure _ envs, .node _ ⟨rfl, .closure _ envs⟩ .nil⟩
  | index place =>
    obtain ⟨value', place', values⟩ := envs.place place
    exact ⟨_, .index place', values, .node _ ⟨rfl, values⟩ .nil⟩
  | varTop env name value =>
    cases envs with
    | push _ _ newest => exact ⟨_, .varTop _ name _, newest, .node _ ⟨rfl, newest⟩ .nil⟩
  | varBelow other _ ih =>
    cases envs with
    | push _ older _ =>
      obtain ⟨below, premise, values, alike⟩ := ih older
      exact ⟨_, .varBelow other premise, values,
        .node _ ⟨rfl, values⟩ (.cons (.derivation alike) .nil)⟩
  | letIn _ _ ih₁ ih₂ =>
    obtain ⟨d₁, bound, values₁, alike₁⟩ := ih₁ envs
    obtain ⟨d₂, result, values₂, alike₂⟩ := ih₂ (.push _ envs values₁)
    exact ⟨_, .letIn bound result, values₂, .node _ ⟨rfl, values₂⟩
      (.cons (.derivation alike₁) (.cons (.derivation alike₂) .nil))⟩
  | letRec _ ih =>
    obtain ⟨d, result, values, alike⟩ := ih (.push _ envs (.recClosure _ _ envs))
    exact ⟨_, .letRec result, values, .node _ ⟨rfl, values⟩ (.cons (.derivation alike) .nil)⟩
  | app _ _ enters _ ih₁ ih₂ ih₃ =>
    obtain ⟨d₁, callee, values₁, alike₁⟩ := ih₁ envs
    obtain ⟨d₂, operand, values₂, alike₂⟩ := ih₂ envs
    obtain ⟨bodyEnv, enters', bodyEnvs⟩ := enters.deepen values₁ values₂
    obtain ⟨d₃, result, values₃, alike₃⟩ := ih₃ bodyEnvs
    exact ⟨_, .app callee operand enters' result, values₃, .node _ ⟨rfl, values₃⟩
      (.cons (.derivation alike₁) (.cons (.derivation alike₂) (.cons (.derivation alike₃) .nil)))⟩
  | operator _ number _ number' exact ih₁ ih₂ =>
    obtain ⟨d₁, first, values₁, alike₁⟩ := ih₁ envs
    obtain ⟨d₂, second, values₂, alike₂⟩ := ih₂ envs
    rw [number] at values₁
    rw [number'] at values₂
    exact ⟨_, .operator first (values₁.eq rfl) second (values₂.eq rfl) exact, .refl _,
      .node _ ⟨rfl, .refl _⟩
        (.cons (.derivation alike₁) (.cons (.derivation alike₂) (.cons (.fact _) .nil)))⟩
  | operandLeft _ faulty ih =>
    obtain ⟨d₁, first, values, alike⟩ := ih envs
    exact ⟨_, .operandLeft first (faulty.deepen values), .error,
      .node _ ⟨rfl, .error⟩ (.cons (.derivation alike) .nil)⟩
  | operandRight _ number _ faulty ih₁ ih₂ =>
    obtain ⟨d₁, first, values₁, -⟩ := ih₁ envs
    obtain ⟨d₂, second, values₂, alike⟩ := ih₂ envs
    rw [number] at values₁
    exact ⟨_, .operandRight first (values₁.eq rfl) second (faulty.deepen values₂), .error,
      .node _ ⟨rfl, .error⟩ (.cons (.derivation alike) .nil)⟩
  | branch _ truth _ named ih₁ ih₂ =>
    obtain ⟨d₁, test, values₁, alike₁⟩ := ih₁ envs
    obtain ⟨d₂, result, values₂, alike₂⟩ := ih₂ envs
    rw [truth] at values₁
    exact ⟨_, .branch test (values₁.eq rfl) result (named.deepen values₂), values₂,
      .node _ ⟨rfl, values₂⟩ (.cons (.derivation alike₁) (.cons (.derivation alike₂) .nil))⟩
  | condition _ faulty ih =>
    obtain ⟨d₁, test, values, alike⟩ := ih envs
    exact ⟨_, .condition test (faulty.deepen values), .error,
      .node _ ⟨rfl, .error⟩ (.cons (.derivation alike) .nil)⟩

theorem Evaluates.deepen (h : Evaluates env e value) (envs : env.Deepens env') :
    ∃ value', Evaluates env' e value' ∧ value.Deepens value' := by
  obtain ⟨d, derives, rfl, free⟩ :
      ∃ d, Derives .turnstile env e d ∧ d.value = value ∧ d.FaultFree := h.derives
  obtain ⟨d', derives', values, alike⟩ := derives.deepen envs
  exact ⟨_, derives'.evaluates (alike.faultFree free), values⟩

/-- Bindings beneath an environment do not matter to a program that works in it. It is derived by
the same rules and facts, with the same value at each node unless that is a closure, and strict
evaluation has the same result unless that is a closure. -/
theorem infer_onto (env older : Env) (e : Expr) :
    (∀ style d, (∃ bound, infer bound style env e = .ok d) →
      ∃ d', (∃ bound, infer bound style (env.onto older) e = .ok d') ∧
        d.Alike (fun j j' => j'.expr = j.expr ∧ (j.value.isClosure = false → j'.value = j.value))
          d') ∧
    ∀ value, value.isClosure = false → (∃ bound, evaluate bound env e = .ok value) →
      ∃ bound, evaluate bound (env.onto older) e = .ok value := by
  have envs := env.deepens_onto older
  constructor
  · intro style d inferred
    obtain ⟨d', derives, -, alike⟩ := (infer_ok_iff.1 inferred).deepen envs
    exact ⟨d', infer_ok_iff.2 derives, alike.mono fun _ _ same => ⟨same.expr, same.value.eq⟩⟩
  · intro value ground evaluated
    obtain ⟨value', evaluates, values⟩ := (evaluate_ok_iff.1 evaluated).deepen envs
    cases values.eq ground
    exact evaluate_ok_iff.2 evaluates

theorem infer_onto_captured :
    let env := Env.empty.push "y" (.int 10)
    let older := (Env.empty.push "x" (.bool true)).push "y" .error
    let e := Expr.letIn "f" (.fn "x" (.binary .plus (.var "x") (.index 2)))
      (.app (.var "f") (.var "y"))
    (∃ bound, evaluate bound (env.onto older) e = .ok (.int 20)) ∧
      ∃ d d', (∃ bound, infer bound .turnstile env e = .ok d) ∧
        (∃ bound, infer bound .turnstile (env.onto older) e = .ok d') ∧
        d.Alike (fun j j' => j'.expr = j.expr ∧ (j.value.isClosure = false → j'.value = j.value))
          d' := by
  intro env older e
  have result : ∃ bound, evaluate bound env e = .ok (.int 20) := ⟨5, by decide +kernel⟩
  obtain ⟨d, derives, -, -⟩ : ∃ d, Derives .turnstile env e d ∧ d.value = .int 20 ∧ d.FaultFree :=
    (evaluate_ok_iff.1 result).derives
  have inferred := infer_ok_iff.2 derives
  obtain ⟨d', inferred', alike⟩ := (infer_onto env older e).1 .turnstile d inferred
  exact ⟨(infer_onto env older e).2 _ rfl result, d, d', inferred, inferred', alike⟩

end ErrorML
