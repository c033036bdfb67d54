import ErrorML.Proofs.Recognition.Value

/-!
# What the judgment parser accepts

A request is an expression, before which an environment and a turnstile may stand. A judgment is a
request that goes on with a value:

    Q ::= E | Bs |- E
    J ::= Q evalto V
-/

namespace ErrorML

open Grammar ErrorML.Parser ErrorML.Sequence

def Judgment.request (j : Judgment) : Request := ⟨j.env, j.expr⟩

namespace Grammar

inductive RequestSentence : List Token → Request → Prop
  | bare {ts e} (expr : Sentence 0 ts e) : RequestSentence ts ⟨none, e⟩
  | turnstile {ts us env e} (bindings : EnvSentence ts env) (expr : Sentence 0 us e) :
      RequestSentence (ts ++ .symbol "|-" :: us) ⟨some env, e⟩

inductive JudgmentSentence : List Token → Judgment → Prop
  | evalto {ts us j} (request : RequestSentence ts j.request) (value : ValueSentence us j.value) :
      JudgmentSentence (ts ++ .word "evalto" :: us) j

variable {input rest : List Char} {e : Expr} {r : Request} {j : Judgment}

theorem expression_sentence (run : expression input = .success e rest) :
    ∃ ts, Sentence 0 ts e ∧ Spells ts input rest :=
  (expression_accepts run).sentence

theorem request_accepts (run : request input = .success r rest) :
    ∃ ts, RequestSentence ts r ∧ Spells ts input rest := by
  obtain ⟨p, member, form⟩ := success_of_firstOf run
  simp only [List.mem_cons, List.not_mem_nil, or_false] at member
  rcases member with rfl | rfl
  · obtain ⟨_, b, e, run₂, expr, rfl⟩ := (Runs.of_parser form).of_next
    obtain ⟨_, a, _, run₁, turnstile, rfl⟩ := run₂.of_next
    obtain ⟨_, _, env, run₀, environment, rfl⟩ := run₁.of_next
    obtain ⟨rfl, rfl⟩ := run₀.of_of
    obtain ⟨ts, bindings, front⟩ := environment_accepts environment
    obtain ⟨us, sentence, back⟩ := expression_sentence expr
    exact ⟨_, .turnstile bindings sentence,
      spells_append.2 ⟨a, front, b, (symbol_accepts turnstile).stands, back⟩⟩
  · obtain ⟨e, expr, rfl⟩ := success_of_map form
    obtain ⟨ts, sentence, spells⟩ := expression_sentence expr
    exact ⟨ts, .bare sentence, spells⟩

theorem judgment_accepts (run : judgment input = .success j rest) :
    ∃ ts, JudgmentSentence ts j ∧ Spells ts input rest := by
  obtain ⟨p, member, form⟩ := success_of_firstOf run
  simp only [List.mem_cons, List.not_mem_nil, or_false] at member
  rcases member with rfl | rfl
  · obtain ⟨_, d, v, run₄, value, rfl⟩ := (Runs.of_parser form).of_next
    obtain ⟨_, c, _, run₃, evalto, rfl⟩ := run₄.of_next
    obtain ⟨_, b, e, run₂, expr, rfl⟩ := run₃.of_next
    obtain ⟨_, a, _, run₁, turnstile, rfl⟩ := run₂.of_next
    obtain ⟨_, _, env, run₀, environment, rfl⟩ := run₁.of_next
    obtain ⟨rfl, rfl⟩ := run₀.of_of
    obtain ⟨ts, bindings, front⟩ := environment_accepts environment
    obtain ⟨us, sentence, middle⟩ := expression_sentence expr
    obtain ⟨vs, result, back⟩ := value_accepts value
    exact ⟨_, .evalto (.turnstile bindings sentence) result, spells_append.2
      ⟨c, spells_append.2 ⟨a, front, b, (symbol_accepts turnstile).stands, middle⟩,
        d, (keyword_accepts evalto).stands, back⟩⟩
  · obtain ⟨_, d, v, run₂, value, rfl⟩ := (Runs.of_parser form).of_next
    obtain ⟨_, c, _, run₁, evalto, rfl⟩ := run₂.of_next
    obtain ⟨_, _, e, run₀, expr, rfl⟩ := run₁.of_next
    obtain ⟨rfl, rfl⟩ := run₀.of_of
    obtain ⟨ts, sentence, front⟩ := expression_sentence expr
    obtain ⟨vs, result, back⟩ := value_accepts value
    exact ⟨_, .evalto (.bare sentence) result,
      spells_append.2 ⟨c, front, d, (keyword_accepts evalto).stands, back⟩⟩

end Grammar

end ErrorML
