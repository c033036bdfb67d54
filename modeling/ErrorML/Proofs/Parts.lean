import ErrorML.Expr.Basic

namespace ErrorML

/-- All parts of the expression, and the expression itself at the end. -/
def Expr.parts : Expr → List Expr
  | .int n => [.int n]
  | .bool b => [.bool b]
  | .error => [.error]
  | .var name => [.var name]
  | .index i => [.index i]
  | .binary op left right => left.parts ++ right.parts ++ [.binary op left right]
  | .ite condition thenBranch elseBranch =>
    condition.parts ++ thenBranch.parts ++ elseBranch.parts ++
      [.ite condition thenBranch elseBranch]
  | .letIn name bound body => bound.parts ++ body.parts ++ [.letIn name bound body]
  | .letRec name bound body => bound.parts ++ body.parts ++ [.letRec name bound body]
  | .fn param body => body.parts ++ [.fn param body]
  | .app function argument => function.parts ++ argument.parts ++ [.app function argument]

namespace Expr

@[simp] theorem mem_parts_self (e : Expr) : e ∈ e.parts := by
  cases e <;> simp [parts]

theorem mem_parts_trans {part inner e : Expr} (within : part ∈ inner.parts)
    (member : inner ∈ e.parts) : part ∈ e.parts := by
  induction e with
  | int | bool | error | var | index =>
    rw [parts, List.mem_singleton] at member
    exact member ▸ within
  | fn _ _ inside =>
    simp only [parts, List.mem_append, List.mem_singleton] at member ⊢
    rcases member with member | rfl
    · exact .inl (inside member)
    · simpa [parts] using within
  | binary _ _ _ first second | letIn _ _ _ first second | letRec _ _ _ first second
  | app _ _ first second =>
    simp only [parts, List.mem_append, List.mem_singleton] at member ⊢
    rcases member with (member | member) | rfl
    · exact .inl (.inl (first member))
    · exact .inl (.inr (second member))
    · simpa [parts, or_assoc] using within
  | ite _ _ _ test holds fails =>
    simp only [parts, List.mem_append, List.mem_singleton] at member ⊢
    rcases member with ((member | member) | member) | rfl
    · exact .inl (.inl (.inl (test member)))
    · exact .inl (.inl (.inr (holds member)))
    · exact .inl (.inr (fails member))
    · simpa [parts, or_assoc] using within

end Expr

end ErrorML
