import ErrorML.Proofs.Recognition.Sentence

/-!
# What the value parser accepts

Values are written by literals and by closures, over the tokens of expressions. An environment is
empty, or a list of bindings that grows at its end:

    V  ::= digits | -digits | true | false | error | ( Bs ) [ F ] | ( Bs ) [ rec B = F ]
    F  ::= fun B -> E
    Bs ::= (nothing) | identifier = V | Bs , identifier = V
-/

namespace ErrorML.Grammar

open ErrorML.Parser ErrorML.Sequence

inductive FunctionSentence : List Token → Function → Prop
  | fn {b param ts body} (binder : b.Binds param) (inner : Sentence 0 ts body) :
      FunctionSentence (.word "fun" :: b :: .symbol "->" :: ts) ⟨param, body⟩

mutual

inductive ValueSentence : List Token → Value → Prop
  | number {digits n v} (numeral : Numeral digits n) (fits : int64? n = some v) :
      ValueSentence [.number digits] (.int v)
  | negative {digits n v} (numeral : Numeral digits n) (fits : int64? (-n) = some v) :
      ValueSentence [.negative digits] (.int v)
  | bool (b : Bool) : ValueSentence [.word (if b then "true" else "false")] (.bool b)
  | error : ValueSentence [.word "error"] .error
  | closure {ts us env f} (captured : EnvSentence ts env) (literal : FunctionSentence us f) :
      ValueSentence
        (.symbol "(" :: ts ++ .symbol ")" :: .symbol "[" :: us ++ [.symbol "]"])
        (.closure env f)
  | recClosure {ts us b env name f} (captured : EnvSentence ts env) (binder : b.Binds name)
      (literal : FunctionSentence us f) :
      ValueSentence
        (.symbol "(" :: ts ++
          .symbol ")" :: .symbol "[" :: .word "rec" :: b :: .symbol "=" :: us ++ [.symbol "]"])
        (.recClosure env name f)

inductive EnvSentence : List Token → Env → Prop
  | empty : EnvSentence [] .empty
  | one {ts name v} (identifier : isIdentifier name = true) (bound : ValueSentence ts v) :
      EnvSentence (.word name :: .symbol "=" :: ts) (.push .empty name v)
  | more {ts us env older oldest name v} (before : EnvSentence ts (.push env older oldest))
      (identifier : isIdentifier name = true) (bound : ValueSentence us v) :
      EnvSentence (ts ++ .symbol "," :: .word name :: .symbol "=" :: us)
        (.push (.push env older oldest) name v)

end

variable {n : Nat} {input a b c d rest : List Char} {ts us : List Token} {name : String}
  {env : Env} {v : Value} {f : Function}

/-! ## What is accepted -/

def ValuesAccepted (n : Nat) : Prop :=
  ∀ ⦃input v rest⦄, input.length < n → value input = .success v rest →
    ∃ ts, ValueSentence ts v ∧ Spells ts input rest

theorem function_accepts (run : functionLiteral expression input = .success f rest) :
    ∃ ts, FunctionSentence ts f ∧ Spells ts input rest := by
  obtain ⟨a, b, c, keyword, param, arrow, body⟩ :=
    functionLiteral_accepts (accepts_expression input.length) (Nat.lt_succ_self _) run
  obtain ⟨t, binds, binder⟩ := param.stands
  obtain ⟨ts, sentence, inner⟩ := body.sentence
  exact ⟨_, .fn binds sentence, _, keyword.stands, _, binder, _, arrow.stands, inner⟩

theorem binding_accepts (calls : ValuesAccepted n) (short : input.length < n + 1)
    (run : binding value input = .success (name, v) rest) :
    isIdentifier name = true ∧ ∃ ts, ValueSentence ts v ∧
      Spells (.word name :: .symbol "=" :: ts) input rest := by
  obtain ⟨_, b, v, run₂, inner, same⟩ := (Runs.of_parser run).of_next
  obtain ⟨_, a, _, run₁, equals, rfl⟩ := run₂.of_next
  obtain ⟨_, _, name, run₀, bound, rfl⟩ := run₁.of_next
  obtain ⟨rfl, rfl⟩ := run₀.of_of
  cases same
  have le₁ := (identifier_takes.success bound).2
  have le₂ := ((symbol_takes (by decide)).success equals).2
  obtain ⟨identifier, word⟩ := identifier_accepts bound
  obtain ⟨ts, sentence, spells⟩ := calls (by omega) inner
  exact ⟨identifier, ts, sentence, _, word.stands, _, (symbol_accepts equals).stands, spells⟩

def furtherBinding : Parser (String × Value) := (symbol ",").skipThen (binding value)

theorem ofList_concat (bindings : List (String × Value)) (name : String) (v : Value) :
    Env.ofList (bindings ++ [(name, v)]) = (Env.ofList bindings).push name v := by
  simp [Env.ofList]

theorem furtherBindings_accept {first : String × Value} {bindings : List (String × Value)}
    (calls : ValuesAccepted n) (short : a.length < n + 1)
    (oldest : EnvSentence ts (.push .empty first.1 first.2)) (front : Spells ts input a)
    (rounds : Rounds furtherBinding a bindings rest) :
    rest.length ≤ a.length ∧ ∃ us env name v, Env.ofList (first :: bindings) = .push env name v ∧
      EnvSentence us (.push env name v) ∧ Spells us input rest := by
  induction rounds with
  | done => exact ⟨Nat.le_refl _, ts, .empty, _, _, rfl, oldest, front⟩
  | @more bindings b newest c before run shorter ih =>
    obtain ⟨le, us, env, name, v, whole, older, front⟩ := ih
    obtain ⟨_, d, comma, run⟩ := success_of_skipThen run
    have less := ((symbol_takes (by decide)).success comma).2
    obtain ⟨identifier, vs, bound, back⟩ := binding_accepts calls (by omega) run
    refine ⟨by omega, _, _, _, _, ?_, .more older identifier bound,
      spells_append.2 ⟨b, front, d, (symbol_accepts comma).stands, back⟩⟩
    rw [← whole, ← ofList_concat]
    rfl

theorem bindings_accepts (calls : ValuesAccepted n) (short : input.length < n + 1)
    (run : bindings value input = .success env rest) :
    ∃ ts, EnvSentence ts env ∧ Spells ts input rest := by
  obtain ⟨found, inner, rfl⟩ := success_of_map run
  obtain ⟨_, list, rfl⟩ | ⟨rfl, rfl⟩ := success_of_optional inner
  · obtain ⟨_, a, bindings, run₁, further, rfl⟩ := (Runs.of_parser list).of_next
    obtain ⟨_, _, first, run₀, head, rfl⟩ := run₁.of_next
    obtain ⟨rfl, rfl⟩ := run₀.of_of
    obtain ⟨identifier, ts, bound, spells⟩ := binding_accepts calls short head
    have begun := ((Production.binding.takes Nonterminal.takes).success head).2
    obtain ⟨-, us, env, name, v, whole, sentence, spells⟩ :=
      furtherBindings_accept calls (by omega) (.one identifier bound) spells (.of_many further)
    exact ⟨us, by rwa [Option.getD_some, whole], spells⟩
  · exact ⟨[], .empty, rfl⟩

theorem captured_accepts (calls : ValuesAccepted n) (short : input.length < n + 1)
    (run : captured value input = .success env rest) :
    ∃ ts, EnvSentence ts env ∧ Spells (.symbol "(" :: ts ++ [.symbol ")"]) input rest := by
  obtain ⟨_, a, b, _, opening, inner, closing⟩ := success_of_between run
  have shorter := ((symbol_takes (by decide)).success opening).2
  obtain ⟨ts, sentence, spells⟩ := bindings_accepts calls (by omega) inner
  exact ⟨ts, sentence, spells_append.2 ⟨b, ⟨a, (symbol_accepts opening).stands, spells⟩, rest,
    (symbol_accepts closing).stands, rfl⟩⟩

theorem closure_accepts (calls : ValuesAccepted n) (short : input.length < n + 1)
    (run : closure value input = .success v rest) :
    ∃ ts, ValueSentence ts v ∧ Spells ts input rest := by
  obtain ⟨_, c, _, run₃, closing, rfl⟩ := (Runs.of_parser run).of_next
  obtain ⟨_, b, f, run₂, literal, rfl⟩ := run₃.of_next
  obtain ⟨_, a, _, run₁, bracket, rfl⟩ := run₂.of_next
  obtain ⟨_, _, env, run₀, environment, rfl⟩ := run₁.of_next
  obtain ⟨rfl, rfl⟩ := run₀.of_of
  obtain ⟨ts, captured, front⟩ := captured_accepts calls short environment
  obtain ⟨us, function, back⟩ := function_accepts literal
  refine ⟨_, .closure captured function, ?_⟩
  obtain ⟨m, bindings, _, paren, rfl⟩ := spells_append.1 front
  exact spells_append.2 ⟨c, spells_append.2
    ⟨m, bindings, _, paren, _, (symbol_accepts bracket).stands, back⟩,
    rest, (symbol_accepts closing).stands, rfl⟩

theorem recClosure_accepts (calls : ValuesAccepted n) (short : input.length < n + 1)
    (run : recClosure value input = .success v rest) :
    ∃ ts, ValueSentence ts v ∧ Spells ts input rest := by
  obtain ⟨_, g, _, run₆, closing, rfl⟩ := (Runs.of_parser run).of_next
  obtain ⟨_, e, f, run₅, literal, rfl⟩ := run₆.of_next
  obtain ⟨_, d, _, run₄, equals, rfl⟩ := run₅.of_next
  obtain ⟨_, c, name, run₃, binder, rfl⟩ := run₄.of_next
  obtain ⟨_, b, _, run₂, keyword, rfl⟩ := run₃.of_next
  obtain ⟨_, a, _, run₁, bracket, rfl⟩ := run₂.of_next
  obtain ⟨_, _, env, run₀, environment, rfl⟩ := run₁.of_next
  obtain ⟨rfl, rfl⟩ := run₀.of_of
  obtain ⟨ts, captured, front⟩ := captured_accepts calls short environment
  obtain ⟨t, binds, bound⟩ := (binder_accepts binder).stands
  obtain ⟨us, function, back⟩ := function_accepts literal
  refine ⟨_, .recClosure captured binds function, ?_⟩
  obtain ⟨m, bindings, _, paren, rfl⟩ := spells_append.1 front
  exact spells_append.2 ⟨g, spells_append.2
    ⟨m, bindings, _, paren, _, (symbol_accepts bracket).stands, _, (keyword_accepts keyword).stands,
      _, bound, _, (symbol_accepts equals).stands, back⟩,
    rest, (symbol_accepts closing).stands, rfl⟩

theorem valueForms_accept (calls : ValuesAccepted n) : ValuesAccepted (n + 1) := by
  intro input v rest short run
  rw [value_unfold] at run
  obtain ⟨p, member, form⟩ := success_of_firstOf run
  simp only [List.mem_cons, List.not_mem_nil, or_false] at member
  rcases member with rfl | rfl | rfl | rfl | rfl
  · obtain ⟨v, read, rfl⟩ := success_of_map form
    obtain ⟨digits, m, numeral, ⟨word, fits⟩ | ⟨-, after, rfl, word, fits⟩⟩ := integer_accepts read
    · exact ⟨_, .number numeral fits, _, word.parts, rfl⟩
    · obtain ⟨gap, rfl, blank, boundary⟩ := word.parts
      exact ⟨_, .negative numeral fits, _, ⟨gap, rfl, blank, boundary⟩, rfl⟩
  · obtain ⟨b, read, rfl⟩ := success_of_map form
    exact ⟨_, .bool b, _, (boolean_accepts read).stands, rfl⟩
  · obtain ⟨_, read, rfl⟩ := success_of_map form
    exact ⟨_, .error, _, (keyword_accepts read).stands, rfl⟩
  · exact closure_accepts calls short form
  · exact recClosure_accepts calls short form

theorem values_accepted (n : Nat) : ValuesAccepted n := by
  induction n with
  | zero =>
    intro input v rest short
    omega
  | succ n ih => exact valueForms_accept ih

theorem value_accepts (run : value input = .success v rest) :
    ∃ ts, ValueSentence ts v ∧ Spells ts input rest :=
  values_accepted (input.length + 1) (Nat.lt_succ_self _) run

theorem environment_accepts (run : environment input = .success env rest) :
    ∃ ts, EnvSentence ts env ∧ Spells ts input rest :=
  bindings_accepts (values_accepted input.length) (Nat.lt_succ_self _) run

end ErrorML.Grammar
