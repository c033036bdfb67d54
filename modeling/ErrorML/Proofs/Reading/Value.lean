import ErrorML.Proofs.Reading.Expr
import ErrorML.Proofs.Recognition.Value

namespace ErrorML

open Grammar ErrorML.Parser ErrorML.Sequence

namespace Grammar

variable {input a b c d rest : List Char} {ts : List Token} {name : String} {env : Env} {v : Value}
  {f : Function}

/-! ## Literals -/

theorem value_int {i : Int64} (read : integer true input = .success i rest) :
    value input = .success (.int i) rest := by
  rw [value_unfold]
  exact firstOf_success _ (map_success _ read)

theorem value_bool {b : Bool} (word : Word (if b then "true" else "false") input rest) :
    value input = .success (.bool b) rest := by
  have spelled : ∃ c more, (if b then "true" else "false").toList = c :: more ∧
      c.isDigit = false := by
    cases b with
    | true => exact ⟨'t', ['r', 'u', 'e'], rfl, rfl⟩
    | false => exact ⟨'f', ['a', 'l', 's', 'e'], rfl, rfl⟩
  obtain ⟨c, more, spelled, digit⟩ := spelled
  rw [value_unfold]
  apply firstOf_of_fails ((word.integer_fails spelled digit true).map _)
  exact firstOf_success _ (map_success _ (boolean_reads word))

theorem value_error (word : Word "error" input rest) : value input = .success .error rest := by
  have other : leadingWord input ≠ "true" ∧ leadingWord input ≠ "false" := by
    rw [word.1]
    decide
  rw [value_unfold]
  apply firstOf_of_fails ((word.integer_fails rfl rfl true).map _)
  apply firstOf_of_fails ((boolean_fails other).map _)
  exact firstOf_success _ (map_success _ (keyword_reads word))

/-! ## Bindings -/

def Binds (input : List Char) (env : Env) (rest : List Char) : Prop :=
  ∃ first middle bindings, binding value input = .success first middle ∧
    Rounds furtherBinding middle bindings rest ∧ Env.ofList (first :: bindings) = env

theorem Binds.more (h : Binds input env a) (comma : Symbol "," a b)
    (read : binding value b = .success (name, v) rest) : Binds input (env.push name v) rest := by
  obtain ⟨first, start, bindings, head, rounds, rfl⟩ := h
  have round : furtherBinding a = .success (name, v) rest :=
    ((Runs.of (fun _ value => value) _).next (symbol_reads comma) |>.next read).parser
  have before := ((symbol_takes (by decide)).success (symbol_reads comma)).2
  have after := ((Production.binding.takes Nonterminal.takes).success read).2
  exact ⟨first, start, bindings ++ [(name, v)], head, rounds.more round (by omega),
    ofList_concat (first :: bindings) name v⟩

theorem Binds.read (h : Binds input env rest) (ended : (symbol ",").Fails rest) :
    bindings value input = .success env rest := by
  obtain ⟨first, start, found, head, rounds, rfl⟩ := h
  have stopped : furtherBinding.Fails rest := ((Runs.of _ rest).stops ended |>.next _).parser
  have list := ((Runs.of List.cons input).next head |>.next (rounds.many stopped)).parser
  exact map_success _ (optional_success list)

theorem binding_fails_unnamed (p : Parser Value)
    (unnamed : isIdentifier (leadingWord input) = false) : (binding p).Fails input :=
  ((Runs.of _ input).stops (identifier_fails unnamed) |>.next _ |>.next _).parser

theorem bindings_empty (failed : (binding value).Fails input) :
    bindings value input = .success .empty input := by
  have stopped := ((Runs.of List.cons input).stops failed |>.next (many furtherBinding)).parser
  exact map_success _ (optional_of_fails stopped)

/-! ## Closures -/

theorem FunctionSentence.read (h : FunctionSentence ts f) (closing : Symbol "]" rest d)
    (spells : Spells ts input rest) :
    functionLiteral expression input = .success f rest ∧ Visible input := by
  obtain ⟨binder, inner⟩ := h
  obtain ⟨a, keyword, b, name, c, arrow, body⟩ := spells
  have body := inner.phrase (closing.visible rfl rfl) body
  have arrow := Symbol.of_stands body.visible arrow
  obtain ⟨name, shown⟩ := Binder.of_stands binder (arrow.visible rfl rfl) name
  have keyword := Word.of_stands (by decide) shown keyword
  have ends : Ends 1 rest := by
    obtain ⟨after, rfl, -⟩ := closing
    exact ends_of_mark (c := ']') (by simp) 1 after
  exact ⟨functionLiteral_reads keyword name arrow (body.read ends), keyword.visible (by decide)⟩

theorem value_closures (opening : Symbol "(" input a)
    (read : firstOf [closure value, recClosure value] input = .success v rest) :
    value input = .success v rest := by
  obtain ⟨after, spelled, -⟩ := opening
  have word : leadingWord input = "" := spelled ▸ leadingWord_cons (c := '(') rfl after
  have first : input.head? = some '(' := spelled ▸ rfl
  have digit : ∀ c ∈ input.head?, c.isDigit = false := by
    rw [first]
    rintro c ⟨⟩
    decide
  rw [value_unfold]
  apply firstOf_of_fails ((integer_fails digit (by simp [first])).map _)
  apply firstOf_of_fails ((boolean_fails (by rw [word]; decide)).map _)
  apply firstOf_of_fails ((keyword_fails (by rw [word]; decide)).map _)
  exact read

theorem value_closure (opening : Symbol "(" input a) (read : captured value input = .success env b)
    (bracket : Symbol "[" b c) (literal : functionLiteral expression c = .success f d)
    (closing : Symbol "]" d rest) : value input = .success (.closure env f) rest := by
  have whole := ((Runs.of (fun env _ function _ => Value.closure env function) input).next read
    |>.next (symbol_reads bracket) |>.next literal |>.next (symbol_reads closing)).parser
  exact value_closures opening (firstOf_success _ whole)

theorem value_recClosure {e g : List Char} (opening : Symbol "(" input a)
    (read : captured value input = .success env b) (bracket : Symbol "[" b c)
    (keyword : Word "rec" c d) (binder : Binder name d e) (equals : Symbol "=" e g)
    {left : List Char} (literal : functionLiteral expression g = .success f left)
    (closing : Symbol "]" left rest) : value input = .success (.recClosure env name f) rest := by
  have notPlain : (Grammar.closure value).Fails input :=
    ((Runs.of (fun env _ function _ => Value.closure env function) _).next read
      |>.next (symbol_reads bracket)
      |>.stops (functionLiteral_fails expression (by rw [keyword.1]; decide)) |>.next _).parser
  have whole :=
    ((Runs.of (fun env _ _ name _ function _ => Value.recClosure env name function) input).next
      read |>.next (symbol_reads bracket) |>.next (keyword_reads keyword)
      |>.next (binder_reads binder) |>.next (symbol_reads equals) |>.next literal
      |>.next (symbol_reads closing)).parser
  exact value_closures opening (firstOf_of_fails notPlain (firstOf_success _ whole))

/-! ## All values and environments -/

theorem binding_reads (identifier : isIdentifier name = true)
    (bound : (Token.word name).Stands input a) (equals : (Token.symbol "=").Stands a b)
    (inner : value b = .success v rest ∧ Visible b) :
    binding value input = .success (name, v) rest ∧ Visible input := by
  have equals := Symbol.of_stands inner.2 equals
  have word := Word.of_stands (inside_of_isIdentifier identifier) (equals.visible rfl rfl) bound
  have read := ((Runs.of (fun name _ value => (name, value)) _).next
    (identifier_reads identifier word) |>.next (symbol_reads equals) |>.next inner.1).parser
  exact ⟨read, word.visible (ne_of_isIdentifier identifier rfl)⟩

theorem EnvSentence.bindings_read (h : EnvSentence ts env) (spells : Spells ts input rest)
    (bound : env ≠ .empty → Binds input env rest ∧ Visible input) (visible : Visible rest)
    (unnamed : isIdentifier (leadingWord rest) = false) (ended : (symbol ",").Fails rest) :
    bindings value input = .success env rest ∧ Visible input := by
  cases env with
  | empty =>
    cases h
    cases spells
    exact ⟨bindings_empty (binding_fails_unnamed value unnamed), visible⟩
  | push env name v =>
    obtain ⟨binds, shown⟩ := bound (by simp)
    exact ⟨binds.read ended, shown⟩

theorem EnvSentence.captured_read (h : EnvSentence ts env) (spells : Spells ts a b)
    (bound : env ≠ .empty → Binds a env b ∧ Visible a)
    (opening : (Token.symbol "(").Stands input a) (closing : Symbol ")" b c) :
    captured value input = .success env c ∧ Symbol "(" input a := by
  have visible := closing.visible (c := ')') rfl rfl
  obtain ⟨after, spelled, -⟩ := id closing
  have unnamed : isIdentifier (leadingWord b) = false :=
    spelled ▸ congrArg isIdentifier (leadingWord_cons (c := ')') rfl after)
  have ended : (symbol ",").Fails b := symbol_fails (c := ',') rfl (by simp [spelled])
  obtain ⟨read, shown⟩ := h.bindings_read spells bound visible unnamed ended
  have opening := Symbol.of_stands shown opening
  exact ⟨((Runs.of _ input).next (symbol_reads opening) |>.next read
    |>.next (symbol_reads closing)).parser, opening⟩

mutual

theorem ValueSentence.read : (v : Value) → ∀ {ts input rest}, ValueSentence ts v → Visible rest →
    Spells ts input rest → value input = .success v rest ∧ Visible input
  | .int i, ts, input, rest, h, visible, spells => by
    cases h with
    | number numeral fits =>
      obtain ⟨_, digits, rfl⟩ := spells
      have word := Word.of_stands numeral.inside visible digits
      exact ⟨value_int (integer_reads true numeral word fits), word.visible numeral.nonempty⟩
    | negative numeral fits =>
      obtain ⟨_, ⟨gap, rfl, blank, boundary⟩, rfl⟩ := spells
      have digits := Word.of_stands numeral.inside visible ⟨gap, rfl, blank, boundary⟩
      exact ⟨value_int (negative_reads numeral digits fits), visible_cons rfl _⟩
  | .bool b, ts, input, rest, h, visible, spells => by
    cases h
    obtain ⟨_, word, rfl⟩ := spells
    have word := Word.of_stands (by cases b <;> decide) visible word
    exact ⟨value_bool word, word.visible (by cases b <;> decide)⟩
  | .error, ts, input, rest, h, visible, spells => by
    cases h
    obtain ⟨_, word, rfl⟩ := spells
    have word := Word.of_stands (by decide) visible word
    exact ⟨value_error word, word.visible (by decide)⟩
  | .closure env f, ts, input, rest, h, visible, spells => by
    cases h with
    | closure captured literal =>
      obtain ⟨d, front, _, closing, rfl⟩ := spells_append.1 spells
      obtain ⟨b, ⟨a, opening, environment⟩, c, paren, _, bracket, function⟩ := spells_append.1 front
      -- From the last token to the first: the blanks of each end at something visible.
      have closing := Symbol.of_stands visible closing
      obtain ⟨function, shown⟩ := literal.read closing function
      have bracket := Symbol.of_stands shown bracket
      have paren := Symbol.of_stands (bracket.visible rfl rfl) paren
      obtain ⟨environment, opening⟩ :=
        captured.captured_read environment
          (EnvSentence.read env captured (paren.visible rfl rfl) environment) opening paren
      exact ⟨value_closure opening environment bracket function closing, opening.visible rfl rfl⟩
  | .recClosure env name f, ts, input, rest, h, visible, spells => by
    cases h with
    | recClosure captured binder literal =>
      obtain ⟨g, front, _, closing, rfl⟩ := spells_append.1 spells
      obtain ⟨b, ⟨a, opening, environment⟩, c, paren, d, bracket, e, keyword, _, name, _, equals,
        function⟩ := spells_append.1 front
      have closing := Symbol.of_stands visible closing
      obtain ⟨function, shown⟩ := literal.read closing function
      have equals := Symbol.of_stands shown equals
      obtain ⟨name, shown⟩ := Binder.of_stands binder (equals.visible rfl rfl) name
      have keyword := Word.of_stands (by decide) shown keyword
      have bracket := Symbol.of_stands (keyword.visible (by decide)) bracket
      have paren := Symbol.of_stands (bracket.visible rfl rfl) paren
      obtain ⟨environment, opening⟩ :=
        captured.captured_read environment
          (EnvSentence.read env captured (paren.visible rfl rfl) environment) opening paren
      exact ⟨value_recClosure opening environment bracket keyword name equals function closing,
        opening.visible rfl rfl⟩

theorem EnvSentence.read : (env : Env) → ∀ {ts input}, EnvSentence ts env → ∀ {rest}, Visible rest →
    Spells ts input rest → env ≠ .empty → Binds input env rest ∧ Visible input
  | .empty, ts, input, h, rest, visible, spells, nonempty => absurd rfl nonempty
  | .push .empty name v, ts, input, h, rest, visible, spells, _ => by
    cases h with
    | one identifier bound =>
      obtain ⟨a, word, b, equals, inner⟩ := spells
      obtain ⟨read, shown⟩ :=
        binding_reads identifier word equals (ValueSentence.read v bound visible inner)
      exact ⟨⟨_, _, [], read, .done, rfl⟩, shown⟩
  | .push (.push env older oldest) name v, ts, input, h, rest, visible, spells, _ => by
    cases h with
    | more before identifier bound =>
      obtain ⟨a, front, b, comma, c, word, d, equals, inner⟩ := spells_append.1 spells
      obtain ⟨read, shown⟩ :=
        binding_reads identifier word equals (ValueSentence.read v bound visible inner)
      have comma := Symbol.of_stands shown comma
      obtain ⟨binds, shown⟩ :=
        EnvSentence.read _ before (comma.visible rfl rfl) front (by simp)
      exact ⟨binds.more comma read, shown⟩

end

end Grammar

/-! ## Texts -/

variable {rest : List Char}

namespace Grammar.Token

theorem stands_tight (t : Token) (parted : t.Parted rest) : t.Stands (t.text ++ rest) rest :=
  ⟨[], rfl, by simp, parted⟩

theorem stands_spaced (t : Token) (rest : List Char) : t.Stands (t.text ++ ' ' :: rest) rest := by
  refine ⟨[' '], rfl, by simp [isBlank], ?_⟩
  cases t with
  | symbol => trivial
  | _ => exact boundary_cons (c := ' ') rfl rest

theorem exists_binds {name : String} (named : isBinder name = true) :
    ∃ t : Token, t.Binds name ∧ t.text = name.toList := by
  rw [isBinder, Bool.or_eq_true, beq_iff_eq] at named
  rcases named with identifier | rfl
  · exact ⟨_, .identifier identifier, rfl⟩
  · exact ⟨_, .anonymous, rfl⟩

end Grammar.Token

theorem booleanText_word (b : Bool) (boundary : Boundary rest) :
    Word (booleanText b) ((booleanText b).toList ++ rest) (skip rest) := by
  apply Word.append _ _ boundary
  cases b <;> rfl

theorem Function.sentence_text {f : Function} (wellFormed : f.WellFormed) (rest : List Char) :
    ∃ ts, FunctionSentence ts f ∧ Spells ts (f.text.toList ++ ']' :: rest) (']' :: rest) := by
  obtain ⟨param, body⟩ := f
  obtain ⟨named, inside⟩ := wellFormed
  have closed := boundary_cons (c := ']') rfl rest
  have phrase := (Expr.phrase_text inside closed).form
  obtain ⟨a, b, keyword, binder, arrow⟩ := function_tokens named phrase.visible
  obtain ⟨t, binds, name⟩ := binder.stands
  obtain ⟨ts, sentence, spells⟩ := phrase.sentence
  refine ⟨_, .fn binds sentence, ?_⟩
  rw [Function.text, Function.expr, Expr.text_fn]
  simp only [String.toList_append, List.append_assoc]
  exact ⟨a, keyword.stands, b, name, _, arrow.stands, spells⟩

theorem spells_closure {ts us : List Token} {captured inside : List Char}
    (front : Spells ts (captured ++ ')' :: '[' :: inside) (skip (')' :: '[' :: inside)))
    (back : Spells us inside (']' :: rest)) :
    Spells (.symbol "(" :: ts ++ .symbol ")" :: .symbol "[" :: us ++ [.symbol "]"])
      ('(' :: (captured ++ ')' :: '[' :: inside)) (skip rest) := by
  rw [skip_cons (by decide)] at front
  have opened : Spells (.symbol "(" :: ts) ('(' :: (captured ++ ')' :: '[' :: inside))
      (')' :: '[' :: inside) := ⟨_, Token.stands_tight (.symbol "(") trivial, front⟩
  have bracketed : Spells (.symbol ")" :: .symbol "[" :: us) (')' :: '[' :: inside) (']' :: rest) :=
    ⟨_, Token.stands_tight (.symbol ")") trivial,
      _, Token.stands_tight (.symbol "[") trivial, back⟩
  exact spells_append.2 ⟨_, spells_append.2 ⟨_, opened, bracketed⟩,
    _, (Symbol.append "]" rest).stands, rfl⟩

mutual

theorem Value.sentence_text : (v : Value) → v.WellFormed → ∀ {rest}, Boundary rest →
    ∃ ts, ValueSentence ts v ∧ Spells ts (v.text.toList ++ rest) (skip rest)
  | .int n, _, rest, boundary => by
    rw [Value.text]
    rcases integerText_tokens n boundary with
      ⟨-, _, _, numeral, fits, word⟩ | ⟨-, _, _, numeral, fits, after, spelled, word⟩
    · exact ⟨_, .number numeral fits, _, word.parts, rfl⟩
    · obtain ⟨gap, rfl, blank, boundary⟩ := word.parts
      rw [spelled]
      exact ⟨_, .negative numeral fits, _, ⟨gap, rfl, blank, boundary⟩, rfl⟩
  | .bool b, _, rest, boundary => by
    rw [Value.text]
    exact ⟨_, .bool b, _, (booleanText_word b boundary).stands, rfl⟩
  | .error, _, rest, boundary => by
    rw [Value.text]
    exact ⟨_, .error, _, (Word.append "error" rfl boundary).stands, rfl⟩
  | .closure env f, wellFormed, rest, _ => by
    rw [Value.WellFormed] at wellFormed
    obtain ⟨inside, literal⟩ := wellFormed
    obtain ⟨us, function, back⟩ := f.sentence_text literal rest
    have closed := boundary_cons (c := ')') rfl ('[' :: (f.text.toList ++ ']' :: rest))
    obtain ⟨ts, captured, front⟩ := env.sentence_text inside closed fun _ => visible_cons rfl _
    have spelled := spells_closure front back
    rw [Value.text]
    simp only [String.toList_append, List.append_assoc]
    exact ⟨_, .closure captured function, spelled⟩
  | .recClosure env name f, wellFormed, rest, _ => by
    rw [Value.WellFormed] at wellFormed
    obtain ⟨inside, named, literal⟩ := wellFormed
    obtain ⟨us, function, back⟩ := f.sentence_text literal rest
    obtain ⟨t, binds, self⟩ := Token.exists_binds named
    have after : Spells (.word "rec" :: t :: .symbol "=" :: us)
        ("rec".toList ++ ' ' :: (t.text ++ ' ' :: ("=".toList ++ ' ' :: (f.text.toList ++
          ']' :: rest)))) (']' :: rest) :=
      ⟨_, Token.stands_spaced (.word "rec") _, _, t.stands_spaced _,
        _, Token.stands_spaced (.symbol "=") _, back⟩
    have closed := boundary_cons (c := ')') rfl ('[' :: ("rec".toList ++ ' ' ::
      (t.text ++ ' ' :: ("=".toList ++ ' ' :: (f.text.toList ++ ']' :: rest)))))
    obtain ⟨ts, captured, front⟩ := env.sentence_text inside closed fun _ => visible_cons rfl _
    have spelled := spells_closure front after
    rw [self] at spelled
    rw [Value.text]
    simp only [String.toList_append, List.append_assoc]
    exact ⟨_, .recClosure captured binds function, spelled⟩

theorem Env.sentence_text : (env : Env) → env.WellFormed → ∀ {rest}, Boundary rest →
    (env = .empty → Visible rest) →
    ∃ ts, EnvSentence ts env ∧ Spells ts (env.text.toList ++ rest) (skip rest)
  | .empty, _, rest, _, shown => by
    rw [Env.text_empty]
    exact ⟨[], .empty, (shown rfl).symm⟩
  | .push .empty name v, wellFormed, rest, boundary, _ => by
    rw [Env.WellFormed] at wellFormed
    obtain ⟨-, identifier, inside⟩ := wellFormed
    obtain ⟨ts, bound, spells⟩ := v.sentence_text inside boundary
    refine ⟨_, .one identifier bound, ?_⟩
    rw [Env.text_push_empty]
    simp only [String.toList_append, List.append_assoc]
    have equals := boundary_cons (c := '=') rfl (v.text.toList ++ rest)
    exact ⟨_, Token.stands_tight (.word name) equals,
      _, Token.stands_tight (.symbol "=") trivial, spells⟩
  | .push (.push env older oldest) name v, wellFormed, rest, boundary, _ => by
    rw [Env.WellFormed] at wellFormed
    obtain ⟨below, identifier, inside⟩ := wellFormed
    obtain ⟨us, bound, back⟩ := v.sentence_text inside boundary
    have equals := boundary_cons (c := '=') rfl (v.text.toList ++ rest)
    have comma :=
      boundary_cons (c := ',') rfl (name.toList ++ ("=".toList ++ (v.text.toList ++ rest)))
    obtain ⟨ts, before, front⟩ := (Env.push env older oldest).sentence_text below comma (by simp)
    rw [skip_cons (by decide)] at front
    refine ⟨_, .more before identifier bound, ?_⟩
    rw [Env.text_push_push]
    simp only [String.toList_append, List.append_assoc]
    exact spells_append.2 ⟨_, front, _, Token.stands_tight (.symbol ",") trivial,
      _, Token.stands_tight (.word name) equals, _, Token.stands_tight (.symbol "=") trivial, back⟩

end

end ErrorML
