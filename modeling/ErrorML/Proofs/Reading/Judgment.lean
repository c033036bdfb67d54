import ErrorML.Proofs.Reading.Value
import ErrorML.Proofs.Recognition.Judgment

/-!
# Judgments are read back

The judgment parser first tries to read an environment and a turnstile. Without a turnstile that has
to fail, whatever the expression is: where its first word would be the name of a binding, no equals
sign follows, and where nothing is read as an environment, an expression stands and no turnstile.
-/

namespace ErrorML

open Grammar ErrorML.Parser ErrorML.Sequence

variable {input rest : List Char} {k : Nat} {e : Expr}

/-! ## How expressions begin -/

theorem Grammar.Phrase.binding_fails (h : Phrase k input e rest) (p : Parser Value)
    (unequal : (symbol "=").Fails rest) : (binding p).Fails input := by
  have keyword {text : String} {input rest : List Char} (h : Word text input rest)
      (word : isIdentifier text = false) : (binding p).Fails input := by
    apply binding_fails_unnamed
    rw [h.1]
    exact word
  have mark {c : Char} (outside : isIdentifierChar c = false) (after : List Char) :
      (binding p).Fails (c :: after) := by
    apply binding_fails_unnamed
    rw [leadingWord_cons outside]
    rfl
  induction h with
  | letIn first => exact keyword first rfl
  | letRec first => exact keyword first rfl
  | fn first => exact keyword first rfl
  | ite first => exact keyword first rfl
  | binary op _ sign _ left _ =>
    apply left
    obtain ⟨c, spelled, -, -, member⟩ := exists_sign op
    obtain ⟨after, rfl, -⟩ := sign
    apply symbol_fails (c := '=') rfl
    rw [spelled, List.singleton_append]
    rintro ⟨⟩
    exact absurd member (by decide)
  | app _ argument function _ =>
    exact function (symbol_fails rfl (argument.starts (c := '=') rfl (by decide)))
  | negative => exact mark rfl _
  | number numeral word _ =>
    apply keyword word
    cases identifier : isIdentifier _ with
    | false => rfl
    | true =>
      obtain ⟨c, more, spelled, digit⟩ := exists_cons_of_isIdentifier identifier
      rw [numeral.digit c (by rw [spelled]; exact .head _)] at digit
      cases digit
  | bool b word => exact keyword word (by cases b <;> rfl)
  | error word => exact keyword word rfl
  | index => exact mark rfl _
  | var identifier word =>
    exact ((Runs.of _ _).next (identifier_reads identifier word) |>.stops unequal
      |>.next _).parser
  | parenthesized opening _ _ _ =>
    obtain ⟨after, rfl, -⟩ := opening
    exact mark rfl after
  | weaken _ ih => exact ih unequal

/-! ## Requests and judgments -/

namespace Grammar

variable {α β : Type} {a b : List Char} {ts : List Token} {env : Env} {r : Request} {j : Judgment}

theorem expression_reads (h : Sentence 0 ts e) (spells : Spells ts input rest)
    (visible : Visible rest) (ends : Ends 1 rest) :
    expression input = .success e rest ∧ Visible input := by
  have phrase := h.phrase visible spells
  exact ⟨phrase.read ends, phrase.visible⟩

theorem turnstile_runs (f : Env → List Char → α)
    (bound : bindings value input = .success env a) (turnstile : Symbol "|-" a b) :
    ((Sequence.of f).next environment |>.next (symbol "|-")).Runs input (f env "|-".toList) b :=
  (Runs.of f input).next bound |>.next (symbol_reads turnstile)

theorem turnstile_stops (f : Env → List Char → α) (h : Phrase k input e rest)
    (unequal : (symbol "=").Fails rest) :
    ((Sequence.of f).next environment |>.next (symbol "|-")).Stops input := by
  have nothing := bindings_empty (h.binding_fails value unequal)
  have unturned : (symbol "|-").Fails input :=
    symbol_fails (c := '|') rfl (h.starts rfl (by decide))
  exact (Runs.of f input).next nothing |>.stops unturned

theorem EnvSentence.turnstile_read {us : List Token} (h : EnvSentence ts env)
    (spells : Spells (ts ++ .symbol "|-" :: us) input rest)
    (shown : ∀ {b}, Spells us b rest → Visible b) :
    ∃ a b, bindings value input = .success env a ∧ Symbol "|-" a b ∧ Spells us b rest ∧
      Visible input := by
  obtain ⟨a, front, b, turnstile, back⟩ := spells_append.1 spells
  have turnstile := Symbol.of_stands (shown back) turnstile
  have visible := turnstile.visible (c := '|') rfl rfl
  obtain ⟨after, spelled, -⟩ := id turnstile
  have unnamed : isIdentifier (leadingWord a) = false :=
    spelled ▸ congrArg isIdentifier (leadingWord_cons (c := '|') rfl ('-' :: after))
  have ended : (symbol ",").Fails a := symbol_fails (c := ',') rfl (by simp [spelled])
  obtain ⟨read, shown⟩ := h.bindings_read front (EnvSentence.read env h visible front) visible
    unnamed ended
  exact ⟨a, b, read, turnstile, back, shown⟩

theorem request_reads (h : RequestSentence ts r) (spells : Spells ts input rest)
    (visible : Visible rest) (ends : Ends 1 rest) (unequal : (symbol "=").Fails rest) :
    request input = .success r rest ∧ Visible input := by
  cases h with
  | bare expr =>
    have phrase := expr.phrase visible spells
    have turned := ((turnstile_stops (fun env _ expr => Request.mk (some env) expr) phrase
      unequal).next expression).parser
    exact ⟨firstOf_of_fails turned (firstOf_success _ (map_success _ (phrase.read ends))),
      phrase.visible⟩
  | turnstile bindings expr =>
    obtain ⟨a, b, environment, turnstile, back, shown⟩ :=
      bindings.turnstile_read spells fun back => (expr.phrase visible back).visible
    have whole := ((turnstile_runs (fun env _ expr => Request.mk (some env) expr) environment
      turnstile).next (expression_reads expr back visible ends).1).parser
    exact ⟨firstOf_success _ whole, shown⟩

theorem Word.closes (h : Word "evalto" input rest) :
    Visible input ∧ Ends 1 input ∧ (symbol "=").Fails input := by
  have spelled : "evalto".toList = 'e' :: ['v', 'a', 'l', 't', 'o'] := rfl
  exact ⟨h.visible (by decide), ends_of_word h (by decide) 1,
    symbol_fails (c := '=') rfl (h.starts spelled rfl)⟩

theorem judgment_reads (h : JudgmentSentence ts j) (spells : Spells ts input rest)
    (visible : Visible rest) : judgment input = .success j rest ∧ Visible input := by
  obtain ⟨request, value⟩ := h
  obtain ⟨c, front, d, evalto, back⟩ := spells_append.1 spells
  obtain ⟨result, shown⟩ := ValueSentence.read _ value visible back
  have evalto := Word.of_stands (by decide) shown evalto
  obtain ⟨closed, ends, unequal⟩ := evalto.closes
  obtain ⟨env, e, v⟩ := j
  cases request with
  | bare expr =>
    have phrase := expr.phrase closed front
    have turned := ((turnstile_stops (fun env _ expr _ value => Judgment.mk (some env) expr value)
      phrase unequal).next expression |>.next (keyword "evalto") |>.next Grammar.value).parser
    have bare := ((Runs.of (fun expr _ value => Judgment.mk none expr value) input).next
      (phrase.read ends) |>.next (keyword_reads evalto) |>.next result).parser
    exact ⟨firstOf_of_fails turned (firstOf_success _ bare), phrase.visible⟩
  | turnstile bindings expr =>
    obtain ⟨a, b, environment, turnstile, back, shown⟩ :=
      bindings.turnstile_read front fun back => (expr.phrase closed back).visible
    have whole := ((turnstile_runs (fun env _ expr _ value => Judgment.mk (some env) expr value)
      environment turnstile).next (expression_reads expr back closed ends).1
      |>.next (keyword_reads evalto) |>.next result).parser
    exact ⟨firstOf_success _ whole, shown⟩

end Grammar

/-! ## Whole texts -/

section Sources

variable {α : Type} {p : Parser α} {Derives : List Token → α → Prop} {source : String}

theorem readAll_iff_spells (takes : p.Takes 1)
    (accepts : ∀ {input x}, p input = .success x [] → ∃ ts, Derives ts x ∧ Spells ts input [])
    (reads : ∀ {ts input x}, Derives ts x → Spells ts input [] → p input = .success x [])
    {x : α} :
    readAll p source = .ok x ↔ ∃ ts, Derives ts x ∧ Spells ts (skip source.toList) [] := by
  rw [readAll_eq_ok_iff]
  constructor
  · rintro ⟨-, run⟩
    exact accepts run
  · rintro ⟨ts, derived, spells⟩
    have read := reads derived spells
    exact ⟨takes.nonempty read, read⟩

theorem parse_expr_iff :
    Expr.parse source = .ok e ↔ ∃ ts, Sentence 0 ts e ∧ Spells ts (skip source.toList) [] := by
  rw [parse_expr_iff_phrase]
  exact ⟨Phrase.sentence, fun ⟨_, sentence, spells⟩ => sentence.phrase skip_nil spells⟩

theorem parse_value_iff {v : Value} :
    Value.parse source = .ok v ↔ ∃ ts, ValueSentence ts v ∧ Spells ts (skip source.toList) [] :=
  readAll_iff_spells value_takes value_accepts fun h spells =>
    (ValueSentence.read _ h skip_nil spells).1

/-- White space is more than blanks, but what is read from it is the empty environment too. -/
theorem parse_env_iff {env : Env} :
    Env.parse source = .ok env ↔ if source.toList.all isWhiteSpace then env = .empty else
      ∃ ts, EnvSentence ts env ∧ Spells ts (skip source.toList) [] := by
  unfold Env.parse
  split
  · exact ⟨fun read => (Except.ok.inj read).symm, fun read => congrArg Except.ok read.symm⟩
  · rename_i shown
    rw [readAll_eq_ok_iff]
    constructor
    · rintro ⟨-, run⟩
      exact environment_accepts run
    · rintro ⟨ts, sentence, spells⟩
      have nonempty : skip source.toList ≠ [] := by
        intro nothing
        obtain ⟨gap, whole, blank⟩ := exists_gap source.toList
        rw [nothing, List.append_nil] at whole
        refine shown (List.all_eq_true.2 fun c member => ?_)
        exact isWhiteSpace_of_isBlank (blank c (whole ▸ member))
      have bound := EnvSentence.read env sentence skip_nil spells
      have ended : (symbol ",").Fails [] := symbol_fails (c := ',') rfl (by simp)
      exact ⟨nonempty, (sentence.bindings_read spells bound skip_nil rfl ended).1⟩

theorem parse_request_iff {r : Request} :
    Request.parse source = .ok r ↔ ∃ ts, RequestSentence ts r ∧ Spells ts (skip source.toList) [] :=
  readAll_iff_spells request_takes request_accepts fun h spells =>
    (request_reads h spells skip_nil (ends_nil 1) (symbol_fails (c := '=') rfl (by simp))).1

theorem parse_judgment_iff {j : Judgment} :
    Judgment.parse source = .ok j ↔
      ∃ ts, JudgmentSentence ts j ∧ Spells ts (skip source.toList) [] :=
  readAll_iff_spells judgment_takes judgment_accepts fun h spells =>
    (judgment_reads h spells skip_nil).1

end Sources

/-! ## Texts -/

theorem Expr.sentence_text (wellFormed : e.WellFormed) (boundary : Boundary rest) :
    ∃ ts, Sentence 0 ts e ∧ Spells ts (e.text.toList ++ rest) (skip rest) :=
  (Expr.phrase_text wellFormed boundary).form.sentence

theorem Request.sentence_text {env : Option Env} (inside : ∀ env' ∈ env, env'.WellFormed)
    (wellFormed : e.WellFormed) (boundary : Boundary rest) :
    ∃ ts, RequestSentence ts ⟨env, e⟩ ∧
      Spells ts ((turnstileText env).toList ++ (e.text.toList ++ rest)) (skip rest) := by
  obtain ⟨us, expr, back⟩ := e.sentence_text wellFormed boundary
  have turnstile := Token.stands_spaced (.symbol "|-") (e.text.toList ++ rest)
  match env with
  | none => exact ⟨us, .bare expr, back⟩
  | some .empty => exact ⟨_, .turnstile .empty expr, _, turnstile, back⟩
  | some (.push env name v) =>
    have closed := boundary_cons (c := ' ') rfl ("|-".toList ++ ' ' :: (e.text.toList ++ rest))
    obtain ⟨ts, bindings, front⟩ := (Env.push env name v).sentence_text (inside _ rfl) closed
      (by simp)
    refine ⟨_, .turnstile bindings expr, spells_append.2 ⟨_, ?_, _, turnstile, back⟩⟩
    rw [turnstileText, String.toList_append, List.append_assoc]
    · exact front
    · simp

theorem Judgment.sentence_text {j : Judgment} (wellFormed : j.WellFormed) :
    ∃ ts, JudgmentSentence ts j ∧ Spells ts j.text.toList [] := by
  obtain ⟨inside, expr, result⟩ := wellFormed
  have closed := boundary_cons (c := ' ') rfl ("evalto".toList ++ ' ' :: j.value.text.toList)
  obtain ⟨ts, request, front⟩ := Request.sentence_text inside expr closed
  obtain ⟨us, value, back⟩ := j.value.sentence_text result boundary_nil
  rw [List.append_nil] at back
  refine ⟨_, .evalto request value, spells_append.2
    ⟨_, ?_, _, Token.stands_spaced (.word "evalto") j.value.text.toList, back⟩⟩
  simp only [Judgment.text, String.toList_append, List.append_assoc]
  exact front

/-! ## Values, environments and judgments are read back -/

theorem parse_value_text {v : Value} (wellFormed : v.WellFormed) : Value.parse v.text = .ok v := by
  obtain ⟨ts, sentence, spells⟩ := v.sentence_text wellFormed boundary_nil
  rw [List.append_nil] at spells
  obtain ⟨read, visible⟩ := ValueSentence.read v sentence skip_nil spells
  exact readAll_success (value_takes.nonempty read) visible read

theorem Env.equals_mem_text (env : Env) (name : String) (v : Value) :
    '=' ∈ (env.push name v).text.toList := by
  cases env with
  | empty => simp [text_push_empty]
  | push => simp [text_push_push]

theorem parse_env_text {env : Env} (wellFormed : env.WellFormed) :
    Env.parse env.text = .ok env := by
  cases env with
  | empty => rfl
  | push env name v =>
    have equals := env.equals_mem_text name v
    have shown : ¬(env.push name v).text.toList.all isWhiteSpace = true := by
      intro blank
      exact absurd (List.all_eq_true.1 blank '=' equals) (by decide)
    obtain ⟨ts, sentence, spells⟩ := Env.sentence_text _ wellFormed boundary_nil (by simp)
    rw [List.append_nil] at spells
    obtain ⟨binds, visible⟩ := EnvSentence.read _ sentence skip_nil spells (by simp)
    rw [Env.parse, if_neg shown]
    exact readAll_success (List.ne_nil_of_mem equals) visible
      (binds.read (symbol_fails rfl (by simp)))

theorem parse_judgment_text {j : Judgment} (wellFormed : j.WellFormed) :
    Judgment.parse j.text = .ok j := by
  obtain ⟨ts, sentence, spells⟩ := Judgment.sentence_text wellFormed
  obtain ⟨read, visible⟩ := judgment_reads sentence spells skip_nil
  exact readAll_success (judgment_takes.nonempty read) visible read

/-- Values, environments and judgments in writing are read back, if all names in them are of their
kind. A judgment keeps whether it has an environment, an empty one, or none. -/
theorem parse_value_env_judgment_text :
    (∀ v : Value, v.WellFormed → Value.parse v.text = .ok v) ∧
      (∀ env : Env, env.WellFormed → Env.parse env.text = .ok env) ∧
      (∀ j : Judgment, j.WellFormed → Judgment.parse j.text = .ok j) :=
  ⟨fun _ => parse_value_text, fun _ => parse_env_text, fun _ => parse_judgment_text⟩

theorem parse_value_env_judgment_text_recClosure :
    Value.parse "(y=-3)[rec f = fun . -> f (-1)]" =
      .ok (.recClosure (.push .empty "y" (.int (-3))) "f" ⟨".", .app (.var "f") (.int (-1))⟩) ∧
    Env.parse "a=true,f=(y=-3)[rec f = fun . -> f (-1)]" =
      .ok (.push (.push .empty "a" (.bool true)) "f"
        (.recClosure (.push .empty "y" (.int (-3))) "f" ⟨".", .app (.var "f") (.int (-1))⟩)) ∧
    Judgment.parse "a < #1 evalto error" =
      .ok ⟨none, .binary .less (.var "a") (.index 1), .error⟩ ∧
    Judgment.parse "|- a < #1 evalto error" =
      .ok ⟨some .empty, .binary .less (.var "a") (.index 1), .error⟩ ∧
    Judgment.parse "a=true |- a < #1 evalto error" =
      .ok ⟨some (.push .empty "a" (.bool true)), .binary .less (.var "a") (.index 1), .error⟩ := by
  obtain ⟨values, envs, judgments⟩ := parse_value_env_judgment_text
  have bare := judgments ⟨none, .binary .less (.var "a") (.index 1), .error⟩
    ⟨by simp, by decide, by decide⟩
  have empty := judgments ⟨some .empty, .binary .less (.var "a") (.index 1), .error⟩
    ⟨by rintro env ⟨⟩; decide, by decide, by decide⟩
  have bound := judgments
    ⟨some (.push .empty "a" (.bool true)), .binary .less (.var "a") (.index 1), .error⟩
    ⟨by rintro env ⟨⟩; decide, by decide, by decide⟩
  refine ⟨values (.recClosure (.push .empty "y" (.int (-3))) "f" ⟨".", .app (.var "f") (.int (-1))⟩)
    (by decide), envs (.push (.push .empty "a" (.bool true)) "f" (.recClosure
      (.push .empty "y" (.int (-3))) "f" ⟨".", .app (.var "f") (.int (-1))⟩)) (by decide),
    bare, empty, bound⟩

end ErrorML
