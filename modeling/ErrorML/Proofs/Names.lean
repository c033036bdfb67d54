import ErrorML.Proofs.Calculus
import ErrorML.Proofs.WellFormed

namespace ErrorML

open Grammar

mutual

/-- Like a well-formed value, but the environments of closures may bind the dot. -/
def Value.WellBound : Value → Prop
  | .int _ | .bool _ | .error => True
  | .closure env function => env.WellBound ∧ function.WellFormed
  | .recClosure env name function => env.WellBound ∧ isBinder name = true ∧ function.WellFormed

def Env.WellBound : Env → Prop
  | .empty => True
  | .push env name value => env.WellBound ∧ isBinder name = true ∧ value.WellBound

end

mutual

def Value.bindsAnonymous : Value → Bool
  | .int _ | .bool _ | .error => false
  | .closure env _ | .recClosure env _ _ => env.bindsAnonymous

def Env.bindsAnonymous : Env → Bool
  | .empty => false
  | .push env name value =>
    env.bindsAnonymous || name == anonymousBinder || value.bindsAnonymous

end

theorem Env.WellBound.bindings {env : Env} (h : env.WellBound) :
    ∀ binding ∈ env.toList, isBinder binding.1 = true ∧ binding.2.WellBound := by
  induction env with
  | empty =>
    rintro binding ⟨⟩
  | push env name v ih =>
    rw [WellBound] at h
    obtain ⟨older, named, newest⟩ := h
    rw [toList, List.forall_mem_cons]
    exact ⟨⟨named, newest⟩, ih older⟩

theorem Value.Enters.wellBound {callee argument : Value} {rule : Rule} {bodyEnv : Env} {body : Expr}
    (h : callee.Enters argument rule bodyEnv body) (closure : callee.WellBound)
    (operand : argument.WellBound) : bodyEnv.WellBound ∧ body.WellFormed := by
  cases h with
  | closure captured param body =>
    rw [Value.WellBound] at closure
    obtain ⟨names, named, inside⟩ := closure
    rw [Env.WellBound]
    exact ⟨⟨names, named, operand⟩, inside⟩
  | recClosure captured self param body =>
    have itself := closure
    rw [Value.WellBound] at closure
    obtain ⟨names, self, named, inside⟩ := closure
    rw [Env.WellBound, Env.WellBound]
    exact ⟨⟨⟨names, self, itself⟩, named, operand⟩, inside⟩

theorem Fact.Exact.wellBound {op : Operator} {m n : Int64} {fact : Fact} {value : Value}
    (h : fact.Exact op m n value) : value.WellBound := by
  cases h <;> simp only [Value.WellBound]

theorem Derives.wellBound {style : Style} {env : Env} {e : Expr} {d : Derivation Rule}
    (h : Derives style env e d) (names : env.WellBound) (wellFormed : e.WellFormed) :
    d.value.WellBound := by
  have error : Value.error.WellBound := by simp only [Value.WellBound]
  induction h with
  | int | bool => simp only [Derivation.value_node, Value.WellBound]
  | error => exact error
  | fn env param body =>
    simp only [Derivation.value_node, Value.WellBound]
    exact ⟨names, wellFormed⟩
  | index place => exact (names.bindings _ (List.mem_of_getElem? place)).2
  | varTop env name value =>
    rw [Env.WellBound] at names
    exact names.2.2
  | varBelow other _ below =>
    rw [Env.WellBound] at names
    exact below names.1 wellFormed
  | letIn _ _ bound result =>
    obtain ⟨named, definition, body⟩ := wellFormed
    apply result _ body
    rw [Env.WellBound]
    exact ⟨names, named, bound names definition⟩
  | letRec _ result =>
    obtain ⟨named, definition, body⟩ := wellFormed
    apply result _ body
    rw [Env.WellBound, Value.WellBound]
    exact ⟨names, named, names, named, definition⟩
  | app _ _ enters _ callee operand result =>
    obtain ⟨function, argument⟩ := wellFormed
    obtain ⟨bodyNames, body⟩ := enters.wellBound (callee names function) (operand names argument)
    exact result bodyNames body
  | operator _ _ _ _ exact => exact exact.wellBound
  | operandLeft => exact error
  | operandRight => exact error
  | @branch _ _ _ _ taken _ _ _ _ _ _ _ _ result =>
    obtain ⟨-, yes, no⟩ := wellFormed
    cases taken with
    | true => exact result names yes
    | false => exact result names no
  | condition => exact error

theorem isIdentifier_iff {name : String} :
    isIdentifier name = true ↔ isBinder name = true ∧ (name == anonymousBinder) = false := by
  rw [isBinder]
  constructor
  · intro identifier
    have other : name ≠ anonymousBinder := by
      rintro rfl
      cases identifier
    simp [identifier, other]
  · rintro ⟨binder, other⟩
    simpa [other] using binder

mutual

theorem Value.wellFormed_iff : (v : Value) →
    (v.WellFormed ↔ v.WellBound ∧ v.bindsAnonymous = false)
  | .int _ | .bool _ | .error => by
    simp only [Value.WellFormed, Value.WellBound, Value.bindsAnonymous, and_self]
  | .closure env f => by
    rw [Value.WellFormed, Env.wellFormed_iff env, Value.WellBound, Value.bindsAnonymous]
    exact and_right_comm
  | .recClosure env name f => by
    rw [Value.WellFormed, Env.wellFormed_iff env, Value.WellBound, Value.bindsAnonymous]
    exact and_right_comm

theorem Env.wellFormed_iff : (env : Env) →
    (env.WellFormed ↔ env.WellBound ∧ env.bindsAnonymous = false)
  | .empty => by
    simp only [Env.WellFormed, Env.WellBound, Env.bindsAnonymous, and_self]
  | .push env name v => by
    rw [Env.WellFormed, Env.wellFormed_iff env, Value.wellFormed_iff v, isIdentifier_iff,
      Env.WellBound, Env.bindsAnonymous]
    grind

end

end ErrorML
