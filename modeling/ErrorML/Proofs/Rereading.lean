import ErrorML.Proofs.Reading.Judgment
import ErrorML.Proofs.Recognition.WellFormed

namespace ErrorML

open Grammar

variable {source : String}

theorem parse_expr_wellFormed {e : Expr} (parsed : Expr.parse source = .ok e) : e.WellFormed := by
  obtain ⟨ts, sentence, -⟩ := parse_expr_iff.1 parsed
  exact sentence.wellFormed

theorem parse_value_wellFormed {v : Value} (parsed : Value.parse source = .ok v) :
    v.WellFormed := by
  obtain ⟨ts, sentence, -⟩ := parse_value_iff.1 parsed
  exact sentence.wellFormed

theorem parse_env_wellFormed {env : Env} (parsed : Env.parse source = .ok env) :
    env.WellFormed := by
  have derived := parse_env_iff.1 parsed
  split at derived
  · rw [derived, Env.WellFormed]
    trivial
  · obtain ⟨ts, sentence, -⟩ := derived
    exact sentence.wellFormed

theorem parse_request_wellFormed {r : Request} (parsed : Request.parse source = .ok r) :
    (∀ env ∈ r.env, env.WellFormed) ∧ r.expr.WellFormed := by
  obtain ⟨ts, sentence, -⟩ := parse_request_iff.1 parsed
  exact sentence.wellFormed

theorem parse_judgment_wellFormed {j : Judgment} (parsed : Judgment.parse source = .ok j) :
    j.WellFormed := by
  obtain ⟨_, ⟨request, value⟩, -⟩ := parse_judgment_iff.1 parsed
  obtain ⟨env, expr⟩ := request.wellFormed
  exact ⟨env, expr, value.wellFormed⟩

/-- Whatever is read from a text has names and indices of their kind in all places, and is read
again from its own writing. Requests are not written. -/
theorem parse_text_of_parse :
    (∀ source e, Expr.parse source = .ok e → e.WellFormed ∧ Expr.parse e.text = .ok e) ∧
      (∀ source v, Value.parse source = .ok v → v.WellFormed ∧ Value.parse v.text = .ok v) ∧
      (∀ source env, Env.parse source = .ok env → env.WellFormed ∧ Env.parse env.text = .ok env) ∧
      (∀ source j, Judgment.parse source = .ok j → j.WellFormed ∧ Judgment.parse j.text = .ok j) ∧
      (∀ source r, Request.parse source = .ok r →
        (∀ env ∈ r.env, env.WellFormed) ∧ r.expr.WellFormed) := by
  refine ⟨fun source e parsed => ?_, fun source v parsed => ?_, fun source env parsed => ?_,
    fun source j parsed => ?_, fun source r parsed => parse_request_wellFormed parsed⟩
  · have wellFormed := parse_expr_wellFormed parsed
    exact ⟨wellFormed, Expr.parse_text wellFormed⟩
  · have wellFormed := parse_value_wellFormed parsed
    exact ⟨wellFormed, parse_value_text wellFormed⟩
  · have wellFormed := parse_env_wellFormed parsed
    exact ⟨wellFormed, parse_env_text wellFormed⟩
  · have wellFormed := parse_judgment_wellFormed parsed
    exact ⟨wellFormed, parse_judgment_text wellFormed⟩

theorem parse_text_of_parse_spaced :
    Expr.parse " (let . = 1 in ((x)))" = .ok (.letIn "." (.int 1) (.var "x")) ∧
      Expr.parse "let . = 1 in x" = .ok (.letIn "." (.int 1) (.var "x")) ∧
    Value.parse "( x = 1 ) [ fun y->(#2) ]" =
      .ok (.closure (.push .empty "x" (.int 1)) ⟨"y", .index 2⟩) ∧
      Value.parse "(x=1)[fun y -> #2]" =
        .ok (.closure (.push .empty "x" (.int 1)) ⟨"y", .index 2⟩) ∧
    Env.parse "f = () [ rec g=fun .->g ]" =
      .ok (.push .empty "f" (.recClosure .empty "g" ⟨".", .var "g"⟩)) ∧
      Env.parse "f=()[rec g = fun . -> g]" =
        .ok (.push .empty "f" (.recClosure .empty "g" ⟨".", .var "g"⟩)) ∧
    Judgment.parse "|-(1)evalto -1" = .ok ⟨some .empty, .int 1, .int (-1)⟩ ∧
      Judgment.parse "|- 1 evalto -1" = .ok ⟨some .empty, .int 1, .int (-1)⟩ ∧
    Request.parse "x=1|-x" = .ok ⟨some (.push .empty "x" (.int 1)), .var "x"⟩ ∧
      (Expr.var "x").WellFormed := by
  obtain ⟨exprs, values, envs, judgments, requests⟩ := parse_text_of_parse
  have expr : Expr.parse " (let . = 1 in ((x)))" = .ok (.letIn "." (.int 1) (.var "x")) := by
    decide +kernel
  have value : Value.parse "( x = 1 ) [ fun y->(#2) ]" =
      .ok (.closure (.push .empty "x" (.int 1)) ⟨"y", .index 2⟩) := by
    decide +kernel
  have env : Env.parse "f = () [ rec g=fun .->g ]" =
      .ok (.push .empty "f" (.recClosure .empty "g" ⟨".", .var "g"⟩)) := by
    decide +kernel
  have judgment : Judgment.parse "|-(1)evalto -1" = .ok ⟨some .empty, .int 1, .int (-1)⟩ := by
    decide +kernel
  have request : Request.parse "x=1|-x" = .ok ⟨some (.push .empty "x" (.int 1)), .var "x"⟩ := by
    decide +kernel
  exact ⟨expr, (exprs _ _ expr).2, value, (values _ _ value).2, env, (envs _ _ env).2, judgment,
    (judgments _ _ judgment).2, request, (requests _ _ request).2⟩

end ErrorML
