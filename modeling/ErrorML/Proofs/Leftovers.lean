import ErrorML.Checking
import ErrorML.Proofs.Parsing.Recursion
import ErrorML.Proofs.Recognition.Token

namespace ErrorML

open Grammar ErrorML.Parser ErrorML.Sequence

variable {α β : Type} {input rest : List Char}

def Parser.Trims (p : Parser α) : Prop :=
  ∀ ⦃input value rest⦄, p input = .success value rest → rest = input ∨ Visible rest

def Sequence.Trims (s : Sequence α) : Prop :=
  ∀ ⦃input value rest⦄, s.Runs input value rest → rest = input ∨ Visible rest

namespace Sequence

theorem of_trims (value : α) : (of value).Trims := by
  intro input found rest run
  exact .inl run.of_of.2.symm

theorem Trims.next {s : Sequence (α → β)} {p : Parser α} (first : s.Trims) (second : p.Trims) :
    (s.next p).Trims := by
  intro input value rest run
  obtain ⟨f, middle, v, front, back, -⟩ := run.of_next
  obtain rfl | visible := second back
  · exact first front
  · exact .inr visible

theorem Trims.parser {s : Sequence α} (h : s.Trims) : s.parser.Trims := by
  intro input value rest run
  exact h (Runs.of_parser run)

end Sequence

namespace Parser

variable {p : Parser α}

theorem Trims.map (h : p.Trims) (f : α → β) : (p.map f).Trims := by
  intro input value rest run
  obtain ⟨v, inner, -⟩ := success_of_map run
  exact h inner

theorem Trims.mapOrRefuse (h : p.Trims) (f : α → Except String β) : (p.mapOrRefuse f).Trims := by
  intro input value rest run
  obtain ⟨v, inner, -⟩ := success_of_mapOrRefuse run
  exact h inner

theorem firstOf_trims {ps : List (Parser α)} (h : ∀ p ∈ ps, p.Trims) : (firstOf ps).Trims := by
  intro input value rest run
  obtain ⟨p, member, inner⟩ := success_of_firstOf run
  exact h p member inner

theorem Trims.optional (h : p.Trims) : p.optional.Trims := by
  intro input value rest run
  obtain ⟨v, inner, -⟩ | ⟨-, same⟩ := success_of_optional run
  · exact h inner
  · exact .inl same

theorem Trims.many (h : p.Trims) : (many p).Trims := by
  intro input values rest run
  have rounds := Rounds.of_many run
  clear run
  induction rounds with
  | done => exact .inl rfl
  | more _ last _ ih =>
    obtain rfl | visible := h last
    · exact ih
    · exact .inr visible

end Parser

namespace Grammar

theorem lexeme_trims (p : Parser α) : (lexeme p).Trims := by
  intro input value rest run
  obtain ⟨after, -, rfl⟩ := lexeme_accepts run
  exact .inr (visible_skip after)

theorem Terminal.trims (t : Terminal α) : t.parser.Trims := by
  cases t with
  | symbol _ _ | keyword _ _ | identifier => exact lexeme_trims _
  | binder => exact firstOf_trims (by simpa using ⟨lexeme_trims _, (lexeme_trims _).map _⟩)
  | boolean =>
    exact firstOf_trims (by simpa using ⟨(lexeme_trims _).map _, (lexeme_trims _).map _⟩)
  | integer _ | index => exact (lexeme_trims _).mapOrRefuse _

theorem trims_compositional : Compositional (fun _ => Parser.Trims) fun _ => Sequence.Trims where
  terminal := Terminal.trims
  map f h := h.map f
  optional h := h.optional
  many h := h.many
  firstOf _ h := firstOf_trims h
  of := of_trims
  next first second := first.next second
  parser h := h.parser

theorem Nonterminal.trims (n : Nonterminal) : n.parser.Trims := by
  apply Nonterminal.induction fun _ input result =>
    ∀ ⦃value rest⦄, result = .success value rest → rest = input ∨ Visible rest
  · intro n input value rest run
    cases run
  · intro calls _ h n
    exact n.production.holds trims_compositional h

end Grammar

/-- The error complains about `rest`, which is left of the source, and quotes `word` from its front.
The word is empty only if that starts with white space. Blanks are no such white space, as they are
not left over. -/
structure CheckError.Quotes (error : CheckError) (source rest : List Char) (word : String) :
    Prop where
  kind : error.kind = .parse
  message : error.message = "expected end of input, found '" ++ word ++ "'"
  longest : ∃ more, rest = word.toList ++ more ∧ (∀ c ∈ word.toList, isWhiteSpace c = false) ∧
    ∀ c ∈ more.head?, isWhiteSpace c
  position : ∃ before, source = before ++ rest ∧
    error.position? = some (Position.locate source (byteLength before))
  empty : word = "" ↔ ∀ c ∈ rest.head?, isWhiteSpace c
  visible : ∀ c ∈ rest.head?, isBlank c = false

theorem firstWord_longest (text : List Char) :
    ∃ more, text = (firstWord text).toList ++ more ∧
      (∀ c ∈ (firstWord text).toList, isWhiteSpace c = false) ∧
      ∀ c ∈ more.head?, isWhiteSpace c := by
  unfold firstWord
  rw [String.toList_ofList]
  refine ⟨_, List.takeWhile_append_dropWhile.symm, ?_, ?_⟩
  · intro c member
    simpa using List.mem_takeWhile_imp member
  · intro c first
    simpa using head?_dropWhile _ text c first

theorem firstWord_eq_empty_iff (text : List Char) :
    firstWord text = "" ↔ ∀ c ∈ text.head?, isWhiteSpace c := by
  rw [firstWord, ← String.toList_eq_nil_iff, String.toList_ofList]
  cases text with
  | nil => simp
  | cons c text => simp [List.takeWhile_cons]

theorem readAll_quotes {p : Parser α} (trims : p.Trims) (takes : p.Takes 0) {source : String}
    {value : α} (run : p (skip source.toList) = .success value rest) (left : rest ≠ []) :
    ∃ error, readAll p source = .error error ∧
      (CheckError.malformed error).Quotes source.toList rest (firstWord rest) := by
  obtain ⟨read, split⟩ := (takes.success run).1
  have whole : source.toList = source.toList.takeWhile isBlank ++ read ++ rest := by
    rw [List.append_assoc, split]
    exact List.takeWhile_append_dropWhile.symm
  have offset : byteLength source.toList - byteLength rest =
      byteLength (source.toList.takeWhile isBlank ++ read) := by
    have lengths := congrArg byteLength whole
    rw [byteLength_append] at lengths
    omega
  have visible : Visible rest := by
    obtain rfl | visible := trims run
    · exact visible_skip _
    · exact visible
  refine ⟨.leftover (firstWord rest) (positionBefore source.toList (byteLength rest)), ?_, ?_⟩
  · unfold readAll
    dsimp only
    split
    next blank =>
      exact absurd (List.append_eq_nil_iff.1 (split.trans blank)).2 left
    next c start shown =>
      unfold skip at run
      rw [← shown, run]
      cases rest with
      | nil => exact absurd rfl left
      | cons => rfl
  · exact {
      kind := rfl
      message := rfl
      longest := firstWord_longest rest
      position := ⟨_, whole, by rw [← offset]; rfl⟩
      empty := firstWord_eq_empty_iff rest
      visible := visible.head? }

theorem judgment_trims : judgment.Trims :=
  Production.judgment.holds trims_compositional Nonterminal.trims

theorem request_trims : request.Trims :=
  Production.request.holds trims_compositional Nonterminal.trims

/-- Texts of all kinds that a parser reads up to `rest` only. What is said of one is a parse error
that quotes `rest` up to its first white space, at the position of `rest`. The quotation is empty
exactly if `rest` starts with white space that is no blank. An environment is only read if its text
is not all white space. -/
theorem parse_leftover_quoted (source : String) (rest : List Char) (left : rest ≠ []) :
    (∀ e, expression (skip source.toList) = .success e rest →
      ∃ error word, Expr.parse source = .error error ∧
        (CheckError.malformed error).Quotes source.toList rest word) ∧
    (∀ v, value (skip source.toList) = .success v rest →
      ∃ error word, Value.parse source = .error error ∧
        (CheckError.malformed error).Quotes source.toList rest word) ∧
    (∀ env, environment (skip source.toList) = .success env rest →
      (∃ c ∈ source.toList, isWhiteSpace c = false) →
      ∃ error word, Env.parse source = .error error ∧
        (CheckError.malformed error).Quotes source.toList rest word) ∧
    (∀ j, judgment (skip source.toList) = .success j rest →
      ∃ error word, Judgment.parse source = .error error ∧
        (CheckError.malformed error).Quotes source.toList rest word) ∧
    (∀ r, request (skip source.toList) = .success r rest →
      ∃ error word, Request.parse source = .error error ∧
        (CheckError.malformed error).Quotes source.toList rest word) := by
  have quotes {α : Type} {p : Parser α} {k : Nat} (trims : p.Trims) (takes : p.Takes k) (a : α)
      (run : p (skip source.toList) = .success a rest) :
      ∃ error word, readAll p source = .error error ∧
        (CheckError.malformed error).Quotes source.toList rest word := by
    obtain ⟨error, unread, quotes⟩ :=
      readAll_quotes trims (takes.weaken (Nat.zero_le k)) run left
    exact ⟨error, _, unread, quotes⟩
  refine ⟨quotes (Nonterminal.trims .expression) expression_takes,
    quotes (Nonterminal.trims .value) value_takes, ?_, quotes judgment_trims judgment_takes,
    quotes request_trims request_takes⟩
  rintro env run ⟨c, member, ink⟩
  have inked : source.toList.all isWhiteSpace = false := by
    rw [List.all_eq_false]
    exact ⟨c, member, by simp [ink]⟩
  unfold Env.parse
  rw [inked]
  exact quotes (Nonterminal.trims .environment) environment_takes env run

theorem parse_leftover_quoted_within_text :
    let rest := ")é x".toList
    let bound := "1 )é x".toList
    (∃ error word, Expr.parse " 1 )é x" = .error error ∧
      (CheckError.malformed error).Quotes " 1 )é x".toList rest word) ∧
    (∃ error word, Value.parse "-1)é x" = .error error ∧
      (CheckError.malformed error).Quotes "-1)é x".toList rest word) ∧
    (∃ error word, Env.parse "\n1 )é x" = .error error ∧
      (CheckError.malformed error).Quotes "\n1 )é x".toList bound word) ∧
    (∃ error word, Judgment.parse "|- 1 evalto 2 )é x" = .error error ∧
      (CheckError.malformed error).Quotes "|- 1 evalto 2 )é x".toList rest word) ∧
    (∃ error word, Request.parse "x = 1 |- x )é x" = .error error ∧
      (CheckError.malformed error).Quotes "x = 1 |- x )é x".toList rest word) := by
  intro rest bound
  refine ⟨(parse_leftover_quoted _ rest (by decide)).1 (.int 1) ?_,
    (parse_leftover_quoted _ rest (by decide)).2.1 (.int (-1)) ?_,
    (parse_leftover_quoted _ bound (by decide)).2.2.1 .empty ?_ ⟨'1', by decide, by decide⟩,
    (parse_leftover_quoted _ rest (by decide)).2.2.2.1 ⟨some .empty, .int 1, .int 2⟩ ?_,
    (parse_leftover_quoted _ rest (by decide)).2.2.2.2
      ⟨some (.push .empty "x" (.int 1)), .var "x"⟩ ?_⟩
  all_goals exact Parsed.eq_success_iff.2 (by decide +kernel)

/-- A no-break space is no blank, so it is left over. It is white space, so it is not quoted. -/
theorem parse_leftover_no_break_space :
    expression (skip "1\u00A0".toList) = .success (.int 1) "\u00A0".toList ∧
    Expr.parse "1\u00A0" = .error (.leftover "" ⟨1, 2⟩) ∧
    ¬∃ error word, word ≠ "" ∧ Expr.parse "1\u00A0" = .error error ∧
      error.message = "expected end of input, found '" ++ word ++ "'" := by
  have unread : Expr.parse "1\u00A0" = .error (.leftover "" ⟨1, 2⟩) := by decide +kernel
  refine ⟨Parsed.eq_success_iff.2 (by decide +kernel), unread, ?_⟩
  rintro ⟨error, word, nonempty, read, message⟩
  rw [unread] at read
  cases read
  have quoted : "expected end of input, found '" ++ "" = "expected end of input, found '" ++ word :=
    (String.append_left_inj "'").1 message
  exact nonempty ((String.append_right_inj _).1 quoted).symm

end ErrorML
