import ErrorML.Proofs.Calculus
import ErrorML.Proofs.StrictRules

namespace ErrorML

variable {style : Style} {env : Env} {e : Expr} {value : Value} {d : Derivation Rule}

def Rule.isFault : Rule → Bool
  | .operand _ _ | .ifInt | .ifError => true
  | _ => false

def Derivation.FaultFree (d : Derivation Rule) : Prop :=
  ∀ node ∈ d.nodes, node.rule.isFault = false

theorem faultFree_node_iff {conclusion : Judgment} {rule : Rule}
    {premises : List (Premise Rule)} :
    (Derivation.node conclusion rule premises).FaultFree ↔
      rule.isFault = false ∧ ∀ d, .derivation d ∈ premises → d.FaultFree :=
  Derivation.forall_nodes_node

theorem BranchRule.isFault {taken : Bool} {rule : Rule} (h : BranchRule taken value rule) :
    rule.isFault = false := by
  cases h <;> rfl

theorem ConditionFault.isFault {rule : Rule} (h : ConditionFault value rule) :
    rule.isFault = true := by
  cases h <;> rfl

theorem Value.Enters.isFault {callee argument : Value} {rule : Rule} {bodyEnv : Env} {body : Expr}
    (h : callee.Enters argument rule bodyEnv body) : rule.isFault = false := by
  cases h <;> rfl

theorem lookup?_derives {name : String} (h : env.lookup? name = some value) :
    ∃ d, Derives style env (.var name) d ∧ d.value = value ∧ d.FaultFree := by
  induction env with
  | empty => cases h
  | push env bound newest ih =>
    rw [Env.lookup?_push] at h
    split at h
    · rename_i same
      subst same
      cases h
      exact ⟨_, .varTop env bound value, rfl, faultFree_node_iff.2 ⟨rfl, by simp⟩⟩
    · rename_i other
      obtain ⟨below, derives, rfl, free⟩ := ih h
      exact ⟨_, .varBelow other derives, rfl, faultFree_node_iff.2 ⟨rfl, by simpa using free⟩⟩

theorem Evaluates.derives (h : Evaluates env e value) :
    ∃ d, Derives style env e d ∧ d.value = value ∧ d.FaultFree := by
  induction h with
  | int env n => exact ⟨_, .int env n, rfl, faultFree_node_iff.2 ⟨rfl, by simp⟩⟩
  | bool env b => exact ⟨_, .bool env b, rfl, faultFree_node_iff.2 ⟨rfl, by simp⟩⟩
  | error env => exact ⟨_, .error env, rfl, faultFree_node_iff.2 ⟨rfl, by simp⟩⟩
  | fn env param body =>
    exact ⟨_, .fn env param body, rfl, faultFree_node_iff.2 ⟨rfl, by simp⟩⟩
  | var found => exact lookup?_derives found
  | index place => exact ⟨_, .index place, rfl, faultFree_node_iff.2 ⟨rfl, by simp⟩⟩
  | letIn _ _ ih₁ ih₂ =>
    obtain ⟨d₁, bound, rfl, free₁⟩ := ih₁
    obtain ⟨d₂, result, rfl, free₂⟩ := ih₂
    refine ⟨_, .letIn bound result, rfl, faultFree_node_iff.2 ⟨rfl, ?_⟩⟩
    simp [free₁, free₂]
  | letRec _ ih =>
    obtain ⟨d, result, rfl, free⟩ := ih
    refine ⟨_, .letRec result, rfl, faultFree_node_iff.2 ⟨rfl, ?_⟩⟩
    simp [free]
  | app _ _ enters _ ih₁ ih₂ ih₃ =>
    obtain ⟨d₁, callee, rfl, free₁⟩ := ih₁
    obtain ⟨d₂, operand, rfl, free₂⟩ := ih₂
    obtain ⟨d₃, result, rfl, free₃⟩ := ih₃
    refine ⟨_, .app callee operand enters result, rfl,
      faultFree_node_iff.2 ⟨enters.isFault, ?_⟩⟩
    simp [free₁, free₂, free₃]
  | binary _ _ exact ih₁ ih₂ =>
    obtain ⟨d₁, first, number, free₁⟩ := ih₁
    obtain ⟨d₂, second, number', free₂⟩ := ih₂
    refine ⟨_, .operator first number second number' exact, rfl,
      faultFree_node_iff.2 ⟨rfl, ?_⟩⟩
    simp [free₁, free₂]
  | @ite _ _ _ _ taken _ _ _ ih₁ ih₂ =>
    obtain ⟨d₁, test, truth, free₁⟩ := ih₁
    obtain ⟨d₂, result, rfl, free₂⟩ := ih₂
    have named : BranchRule taken d₂.value (branchRule taken d₂.value) := branchRule_eq_iff.1 rfl
    refine ⟨_, .branch test truth result named, rfl, faultFree_node_iff.2 ⟨named.isFault, ?_⟩⟩
    simp [free₁, free₂]

theorem Derives.evaluates (h : Derives style env e d) (free : d.FaultFree) :
    Evaluates env e d.value := by
  induction h with
  | int env n => exact .int env n
  | bool env b => exact .bool env b
  | error env => exact .error env
  | fn env param body => exact .fn env param body
  | index place => exact .index place
  | varTop env name value => exact .var (by rw [Env.lookup?_push, if_pos rfl]; rfl)
  | varBelow other _ ih =>
    have below := (faultFree_node_iff.1 free).2
    cases ih (below _ (by simp)) with
    | var found => exact .var (by rw [Env.lookup?_push, if_neg other, found]; rfl)
  | letIn _ _ ih₁ ih₂ =>
    have parts := (faultFree_node_iff.1 free).2
    exact .letIn (ih₁ (parts _ (by simp))) (ih₂ (parts _ (by simp)))
  | letRec _ ih =>
    have parts := (faultFree_node_iff.1 free).2
    exact .letRec (ih (parts _ (by simp)))
  | app _ _ enters _ ih₁ ih₂ ih₃ =>
    have parts := (faultFree_node_iff.1 free).2
    exact .app (ih₁ (parts _ (by simp))) (ih₂ (parts _ (by simp))) enters
      (ih₃ (parts _ (by simp)))
  | operator _ number _ number' exact ih₁ ih₂ =>
    have parts := (faultFree_node_iff.1 free).2
    have first := ih₁ (parts _ (by simp))
    have second := ih₂ (parts _ (by simp))
    rw [number] at first
    rw [number'] at second
    exact .binary first second exact
  | branch _ truth _ _ ih₁ ih₂ =>
    have parts := (faultFree_node_iff.1 free).2
    have test := ih₁ (parts _ (by simp))
    rw [truth] at test
    exact .ite test (ih₂ (parts _ (by simp)))
  | operandLeft => cases (faultFree_node_iff.1 free).1
  | operandRight => cases (faultFree_node_iff.1 free).1
  | condition _ faulty =>
    have fault := (faultFree_node_iff.1 free).1
    rw [faulty.isFault] at fault
    cases fault

/-- Strict evaluation gives a value exactly if inference derives it without noticing a fault; in
particular, it gives none where inference fails. -/
theorem evaluate_ok_iff_faultFree (env : Env) (e : Expr) :
    (∀ value, (∃ bound, evaluate bound env e = .ok value) ↔
      ∃ bound d, infer bound .turnstile env e = .ok d ∧ d.value = value ∧ d.FaultFree) ∧
    ((∃ bound reason, infer bound .turnstile env e = .error reason) →
      ∀ bound value, evaluate bound env e ≠ .ok value) := by
  constructor
  · intro value
    rw [evaluate_ok_iff]
    constructor
    · intro h
      obtain ⟨d, derives, same, free⟩ := h.derives
      obtain ⟨bound, inferred⟩ := infer_ok_iff.2 derives
      exact ⟨bound, d, inferred, same, free⟩
    · rintro ⟨bound, d, inferred, rfl, free⟩
      exact (Derives.of_infer inferred).evaluates free
  · rintro ⟨bound, reason, failed⟩ bound' value h
    obtain ⟨d, derives, -, -⟩ := (Evaluates.of_evaluate h).derives
    obtain ⟨bound'', inferred⟩ := infer_ok_iff.2 derives
    have later := (infer_mono (Nat.le_max_left bound bound'') .turnstile env e).eq_error failed
    have later' := (infer_mono (Nat.le_max_right bound bound'') .turnstile env e).eq_ok inferred
    rw [later] at later'
    cases later'

end ErrorML
