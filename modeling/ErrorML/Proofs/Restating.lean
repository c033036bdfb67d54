import ErrorML.Proofs.Names
import ErrorML.Proofs.Reading.Evalto
import ErrorML.Proofs.Rereading
import ErrorML.Proofs.Reproving

namespace ErrorML

open Grammar

variable {source : String} {v : Value}

theorem prove_ok_iff :
    (∃ bound text, prove bound source = .ok text) ↔
      ∃ j, Judgment.parse source = .ok j ∧ ∃ bound d, proveJudgment bound j = .ok d := by
  simp only [prove, Outcome.bind_eq_ok, Outcome.mapError_eq_ok, Outcome.ofExcept_eq_ok]
  constructor
  · rintro ⟨bound, _, j, parsed, d, proved, -⟩
    exact ⟨j, parsed, bound, d, proved⟩
  · rintro ⟨j, parsed, bound, d, proved⟩
    exact ⟨bound, _, j, parsed, d, proved, rfl⟩

theorem eval_errorValues_ok_iff :
    (∃ bound, eval bound .errorValues source = .ok v) ↔
      ∃ r, Request.parse source = .ok r ∧
        ∃ d, Derives .turnstile (r.env.getD .empty) r.expr d ∧ d.value = v := by
  simp only [eval, answer, Outcome.bind_eq_ok, Outcome.mapError_eq_ok, Outcome.ofExcept_eq_ok,
    ← infer_ok_iff]
  constructor
  · rintro ⟨bound, r, parsed, d, found, value⟩
    cases value
    exact ⟨r, parsed, d, ⟨bound, found⟩, rfl⟩
  · rintro ⟨r, parsed, d, ⟨bound, found⟩, rfl⟩
    exact ⟨bound, r, parsed, d, found, rfl⟩

theorem parse_value_text_iff : Value.parse v.text = .ok v ↔ v.WellFormed :=
  ⟨parse_value_wellFormed, parse_value_text⟩

theorem prove_eval_iff_parse (answered : ∃ bound, eval bound .errorValues source = .ok v) :
    (∃ bound text, prove bound (source ++ " evalto " ++ v.text) = .ok text) ↔
      Value.parse v.text = .ok v := by
  obtain ⟨r, asked, d, derives, rfl⟩ := eval_errorValues_ok_iff.1 answered
  simp only [prove_ok_iff, parse_evalto_iff asked]
  constructor
  · rintro ⟨j, ⟨rfl, parsed⟩, bound, d', proved⟩
    obtain ⟨derives', value⟩ := proveJudgment_iff_derives.1 ⟨bound, proved⟩
    -- A bare judgment is proved in another style than the answer was found, with the same value.
    have same := (derives'.inStyle .turnstile).unique derives
    have actual : d.value = j.value := by rw [← same, d'.value_inStyle, value]
    rw [actual] at parsed ⊢
    exact parsed
  · intro parsed
    let j : Judgment := ⟨r.env, r.expr, d.value⟩
    obtain ⟨bound, proved⟩ :=
      proveJudgment_iff_derives.2 ⟨derives.inStyle j.style, d.value_inStyle j.style⟩
    exact ⟨j, ⟨rfl, parsed⟩, bound, _, proved⟩

theorem eval_wellBound (answered : ∃ bound, eval bound .errorValues source = .ok v) :
    v.WellBound := by
  obtain ⟨r, asked, d, derives, rfl⟩ := eval_errorValues_ok_iff.1 answered
  obtain ⟨inside, expr⟩ := parse_request_wellFormed asked
  refine derives.wellBound ?_ expr
  cases env : r.env with
  | none => simp only [Option.getD_none, Env.WellBound]
  | some env' => exact ((Env.wellFormed_iff env').1 (inside env' env)).1

/-- The answer to a request is proved, when it is stated for that request, exactly if no closure in
it has captured a binding without a name. -/
theorem prove_eval_iff (answered : ∃ bound, eval bound .errorValues source = .ok v) :
    (∃ bound text, prove bound (source ++ " evalto " ++ v.text) = .ok text) ↔
      v.bindsAnonymous = false := by
  rw [prove_eval_iff_parse answered, parse_value_text_iff, Value.wellFormed_iff,
    and_iff_right (eval_wellBound answered)]

theorem prove_eval_iff_recClosure :
    eval 4 .errorValues "let x = 1 in let rec f = fun . -> x in fun y -> f" =
      .ok (.closure (.push (.push .empty "x" (.int 1)) "f"
        (.recClosure (.push .empty "x" (.int 1)) "f" ⟨".", .var "x"⟩)) ⟨"y", .var "f"⟩) ∧
    ∃ bound text, prove bound ("let x = 1 in let rec f = fun . -> x in fun y -> f" ++
      " evalto (x=1,f=(x=1)[rec f = fun . -> x])[fun y -> f]") = .ok text := by
  have answered : eval 4 .errorValues "let x = 1 in let rec f = fun . -> x in fun y -> f" =
      .ok (.closure (.push (.push .empty "x" (.int 1)) "f"
        (.recClosure (.push .empty "x" (.int 1)) "f" ⟨".", .var "x"⟩)) ⟨"y", .var "f"⟩) := by
    decide +kernel
  exact ⟨answered, (prove_eval_iff ⟨4, answered⟩).2 (by decide)⟩

/-- The binding of the first `let` has no name but is captured. -/
theorem prove_eval_anonymous :
    eval 2 .errorValues "let . = 1 in fun x -> #2" =
      .ok (.closure (.push .empty "." (.int 1)) ⟨"x", .index 2⟩) ∧
    (Value.closure (.push .empty "." (.int 1)) ⟨"x", .index 2⟩).text = "(.=1)[fun x -> #2]" ∧
    ¬∃ bound text, prove bound ("let . = 1 in fun x -> #2" ++ " evalto " ++
      (Value.closure (.push .empty "." (.int 1)) ⟨"x", .index 2⟩).text) = .ok text := by
  have answered : eval 2 .errorValues "let . = 1 in fun x -> #2" =
      .ok (.closure (.push .empty "." (.int 1)) ⟨"x", .index 2⟩) := by
    decide +kernel
  refine ⟨answered, rfl, ?_⟩
  rw [prove_eval_iff_parse ⟨2, answered⟩, parse_value_text_iff]
  decide

end ErrorML
