import ErrorML.Proofs.Recognition.Expr
import ErrorML.Proofs.Reading.Expr

/-!
# The language of expressions

The texts that stand for expressions, told without a parser: tokens with blanks between them, and a
context-free grammar over the tokens. Each nonterminal of the grammar is known by the strength of
the forms that it derives:

    0   E ::= let B = E in E | let rec B = E in E | fun B -> E | if E then E else E | C
    1   C ::= S | C < S
    2   S ::= P | S + P | S - P
    3   P ::= A | P * A
    4   A ::= H | A G
    5   H ::= G | -digits
    6   G ::= ( E ) | digits | true | false | error | #digits | identifier
        B ::= identifier | .
-/

namespace ErrorML.Grammar

/-! ## Tokens in writing -/

inductive Token where
  | word (text : String)
  | symbol (text : String)
  | number (digits : String)
  | negative (digits : String)
  | index (digits : String)

namespace Token

def text : Token → List Char
  | .word text | .symbol text | .number text => text.toList
  | .negative digits => '-' :: digits.toList
  | .index digits => '#' :: digits.toList

def Parted : Token → List Char → Prop
  | .symbol _, _ => True
  | _, after => Boundary after

def Stands (t : Token) (input rest : List Char) : Prop :=
  ∃ gap, input = t.text ++ (gap ++ rest) ∧ (∀ c ∈ gap, isBlank c = true) ∧ t.Parted (gap ++ rest)

end Token

/-- The input up to `rest` is these tokens, each with blanks after it. -/
def Spells : List Token → List Char → List Char → Prop
  | [], input, rest => input = rest
  | t :: ts, input, rest => ∃ middle, t.Stands input middle ∧ Spells ts middle rest

theorem spells_append {ts us : List Token} {input rest : List Char} :
    Spells (ts ++ us) input rest ↔ ∃ middle, Spells ts input middle ∧ Spells us middle rest := by
  induction ts generalizing input with
  | nil => simp [Spells]
  | cons t ts ih =>
    simp only [List.cons_append, Spells, ih]
    constructor
    · rintro ⟨a, first, b, front, back⟩
      exact ⟨b, ⟨a, first, front⟩, back⟩
    · rintro ⟨b, ⟨a, first, front⟩, back⟩
      exact ⟨a, first, b, front, back⟩

/-! ## The grammar -/

inductive Token.Binds : Token → String → Prop
  | identifier {name : String} (identifier : isIdentifier name = true) : Binds (.word name) name
  | anonymous : Binds (.symbol anonymousBinder) anonymousBinder

/-- The grammar over tokens. Numbers have to fit in a word of the machine; that a numeral has no
more digits than such a word counts is no condition on texts that a machine holds. -/
inductive Sentence : Nat → List Token → Expr → Prop
  | letIn {b name ts us bound body} (binder : b.Binds name) (inner : Sentence 0 ts bound)
      (outer : Sentence 0 us body) :
      Sentence 0 (.word "let" :: b :: .symbol "=" :: ts ++ .word "in" :: us)
        (.letIn name bound body)
  | letRec {b name ts us bound body} (binder : b.Binds name) (inner : Sentence 0 ts bound)
      (outer : Sentence 0 us body) :
      Sentence 0 (.word "let" :: .word "rec" :: b :: .symbol "=" :: ts ++ .word "in" :: us)
        (.letRec name bound body)
  | fn {b param ts body} (binder : b.Binds param) (inner : Sentence 0 ts body) :
      Sentence 0 (.word "fun" :: b :: .symbol "->" :: ts) (.fn param body)
  | ite {ts us vs condition thenBranch elseBranch} (test : Sentence 0 ts condition)
      (yes : Sentence 0 us thenBranch) (no : Sentence 0 vs elseBranch) :
      Sentence 0 (.word "if" :: ts ++ .word "then" :: us ++ .word "else" :: vs)
        (.ite condition thenBranch elseBranch)
  | binary (op : Operator) {ts us left right} (first : Sentence op.strength ts left)
      (second : Sentence (op.strength + 1) us right) :
      Sentence op.strength (ts ++ .symbol op.symbol :: us) (.binary op left right)
  | app {ts us function argument} (first : Sentence 4 ts function)
      (second : Sentence 6 us argument) : Sentence 4 (ts ++ us) (.app function argument)
  | negative {digits n v} (numeral : Numeral digits n) (fits : int64? (-n) = some v) :
      Sentence 5 [.negative digits] (.int v)
  | parenthesized {ts e} (inner : Sentence 0 ts e) :
      Sentence 6 (.symbol "(" :: ts ++ [.symbol ")"]) e
  | number {digits n v} (numeral : Numeral digits n) (fits : int64? n = some v) :
      Sentence 6 [.number digits] (.int v)
  | bool (b : Bool) : Sentence 6 [.word (if b then "true" else "false")] (.bool b)
  | error : Sentence 6 [.word "error"] .error
  | index {digits n} (numeral : Numeral digits n) (positive : 1 ≤ n) (fits : n ≤ maxWord) :
      Sentence 6 [.index digits] (.index n)
  | var {name} (identifier : isIdentifier name = true) : Sentence 6 [.word name] (.var name)
  | unit {k ts e} (inner : Sentence (k + 1) ts e) : Sentence k ts e

variable {k : Nat} {input rest : List Char} {e : Expr} {word text digits name : String}

/-! ## Sentences are phrases -/

theorem skip_gap {gap : List Char} (blank : ∀ c ∈ gap, isBlank c = true) (visible : Visible rest) :
    skip (gap ++ rest) = rest := by
  rw [skip, List.dropWhile_append_of_pos blank]
  exact visible

theorem Word.of_stands (inside : word.toList.all isIdentifierChar = true) (visible : Visible rest)
    (h : (Token.word word).Stands input rest) : Word word input rest := by
  obtain ⟨gap, rfl, blank, boundary⟩ := h
  have read := Word.append word inside boundary
  rwa [skip_gap blank visible] at read

theorem Symbol.of_stands (visible : Visible rest) (h : (Token.symbol text).Stands input rest) :
    Symbol text input rest := by
  obtain ⟨gap, rfl, blank, -⟩ := h
  exact ⟨gap ++ rest, rfl, skip_gap blank visible⟩

theorem Binder.of_stands {b : Token} (binds : b.Binds name) (visible : Visible rest)
    (h : b.Stands input rest) : Binder name input rest ∧ Visible input := by
  cases binds with
  | identifier identifier =>
    have word := Word.of_stands (inside_of_isIdentifier identifier) visible h
    exact ⟨.inl ⟨identifier, word⟩, word.visible (ne_of_isIdentifier identifier rfl)⟩
  | anonymous =>
    have dot := Symbol.of_stands visible h
    exact ⟨.inr ⟨rfl, dot⟩, dot.visible rfl rfl⟩

/-- The tokens are taken from the last one to the first, since a token and the blanks after it end
where the next one begins. -/
theorem Sentence.phrase {ts : List Token} (h : Sentence k ts e) (visible : Visible rest)
    (spells : Spells ts input rest) : Phrase k input e rest := by
  induction h generalizing input rest with
  | letIn binder _ _ inner outer =>
    obtain ⟨d, ⟨a, first, b, name, c, equals, bound⟩, f, second, body⟩ := spells_append.1 spells
    have body := outer visible body
    have second := Word.of_stands (by decide) body.visible second
    have bound := inner (second.visible (by decide)) bound
    have equals := Symbol.of_stands bound.visible equals
    obtain ⟨name, shown⟩ := Binder.of_stands binder (equals.visible rfl rfl) name
    exact .letIn (.of_stands (by decide) shown first) name equals bound second body
  | letRec binder _ _ inner outer =>
    obtain ⟨f, ⟨a, first, b, second, c, name, d, equals, bound⟩, g, third, body⟩ :=
      spells_append.1 spells
    have body := outer visible body
    have third := Word.of_stands (by decide) body.visible third
    have bound := inner (third.visible (by decide)) bound
    have equals := Symbol.of_stands bound.visible equals
    obtain ⟨name, shown⟩ := Binder.of_stands binder (equals.visible rfl rfl) name
    have second := Word.of_stands (by decide) shown second
    exact .letRec (.of_stands (by decide) (second.visible (by decide)) first) second name equals
      bound third body
  | fn binder _ inner =>
    obtain ⟨a, keyword, b, name, c, arrow, body⟩ := spells
    have body := inner visible body
    have arrow := Symbol.of_stands body.visible arrow
    obtain ⟨name, shown⟩ := Binder.of_stands binder (arrow.visible rfl rfl) name
    exact .fn (.of_stands (by decide) shown keyword) name arrow body
  | ite _ _ _ test yes no =>
    obtain ⟨d, front, f, third, last⟩ := spells_append.1 spells
    obtain ⟨b, ⟨a, first, condition⟩, c, second, middle⟩ := spells_append.1 front
    have last := no visible last
    have third := Word.of_stands (by decide) last.visible third
    have middle := yes (third.visible (by decide)) middle
    have second := Word.of_stands (by decide) middle.visible second
    have condition := test (second.visible (by decide)) condition
    exact .ite (.of_stands (by decide) condition.visible first) condition second middle third last
  | binary op _ _ first second =>
    obtain ⟨a, left, b, sign, right⟩ := spells_append.1 spells
    obtain ⟨c, spelled, -, nonblank, -⟩ := exists_sign op
    have right := second visible right
    have sign := Symbol.of_stands right.visible sign
    exact .binary op (first (sign.visible spelled nonblank) left) sign right
  | app _ _ first second =>
    obtain ⟨a, left, right⟩ := spells_append.1 spells
    have right := second visible right
    exact .app (first right.visible left) right
  | negative numeral fits =>
    obtain ⟨_, ⟨gap, rfl, blank, boundary⟩, rfl⟩ := spells
    have digits := Word.of_stands numeral.inside visible ⟨gap, rfl, blank, boundary⟩
    exact .negative numeral digits fits
  | parenthesized _ inner =>
    obtain ⟨b, ⟨a, opening, middle⟩, _, closing, rfl⟩ := spells_append.1 spells
    have closing := Symbol.of_stands visible closing
    have middle := inner (closing.visible rfl rfl) middle
    exact .parenthesized (.of_stands middle.visible opening) middle closing
  | number numeral fits =>
    obtain ⟨_, digits, rfl⟩ := spells
    exact .number numeral (.of_stands numeral.inside visible digits) fits
  | bool b =>
    obtain ⟨_, word, rfl⟩ := spells
    exact .bool b (.of_stands (by cases b <;> decide) visible word)
  | error =>
    obtain ⟨_, word, rfl⟩ := spells
    exact .error (.of_stands (by decide) visible word)
  | index numeral positive fits =>
    obtain ⟨_, ⟨gap, rfl, blank, boundary⟩, rfl⟩ := spells
    have digits := Word.of_stands numeral.inside visible ⟨gap, rfl, blank, boundary⟩
    exact .index numeral digits positive fits
  | var identifier =>
    obtain ⟨_, word, rfl⟩ := spells
    exact .var identifier (.of_stands (inside_of_isIdentifier identifier) visible word)
  | unit _ ih => exact (ih visible spells).weaken

/-! ## Phrases are sentences -/

theorem exists_gap (after : List Char) :
    ∃ gap, after = gap ++ skip after ∧ ∀ c ∈ gap, isBlank c = true :=
  ⟨after.takeWhile isBlank, List.takeWhile_append_dropWhile.symm,
    List.all_eq_true.1 List.all_takeWhile⟩

theorem Word.parts (h : Word word input rest) :
    ∃ gap, input = word.toList ++ (gap ++ rest) ∧ (∀ c ∈ gap, isBlank c = true) ∧
      Boundary (gap ++ rest) := by
  obtain ⟨gap, whole, blank⟩ := exists_gap (input.dropWhile isIdentifierChar)
  have boundary := boundary_dropWhile input
  have spelled := List.takeWhile_append_dropWhile (p := isIdentifierChar) (l := input)
  rw [h.2] at whole
  rw [h.toList, whole] at spelled
  rw [whole] at boundary
  exact ⟨gap, spelled.symm, blank, boundary⟩

theorem Word.stands (h : Word word input rest) : (Token.word word).Stands input rest := h.parts

theorem Symbol.stands (h : Symbol text input rest) : (Token.symbol text).Stands input rest := by
  obtain ⟨after, rfl, rfl⟩ := h
  obtain ⟨gap, whole, blank⟩ := exists_gap after
  exact ⟨gap, congrArg (text.toList ++ ·) whole, blank, trivial⟩

theorem Binder.stands (h : Binder name input rest) :
    ∃ b : Token, b.Binds name ∧ b.Stands input rest := by
  rcases h with ⟨identifier, word⟩ | ⟨rfl, dot⟩
  · exact ⟨_, .identifier identifier, word.stands⟩
  · exact ⟨_, .anonymous, dot.stands⟩

theorem Phrase.sentence (h : Phrase k input e rest) :
    ∃ ts, Sentence k ts e ∧ Spells ts input rest := by
  induction h with
  | letIn first binder equals _ second _ inner outer =>
    obtain ⟨b, binds, name⟩ := binder.stands
    obtain ⟨ts, bound, inner⟩ := inner
    obtain ⟨us, body, outer⟩ := outer
    exact ⟨_, .letIn binds bound body, spells_append.2
      ⟨_, ⟨_, first.stands, _, name, _, equals.stands, inner⟩, _, second.stands, outer⟩⟩
  | letRec first second binder equals _ third _ inner outer =>
    obtain ⟨b, binds, name⟩ := binder.stands
    obtain ⟨ts, bound, inner⟩ := inner
    obtain ⟨us, body, outer⟩ := outer
    exact ⟨_, .letRec binds bound body, spells_append.2
      ⟨_, ⟨_, first.stands, _, second.stands, _, name, _, equals.stands, inner⟩, _, third.stands,
        outer⟩⟩
  | fn keyword param arrow _ inner =>
    obtain ⟨b, binds, name⟩ := param.stands
    obtain ⟨ts, body, inner⟩ := inner
    exact ⟨_, .fn binds body, _, keyword.stands, _, name, _, arrow.stands, inner⟩
  | ite first _ second _ third _ test yes no =>
    obtain ⟨ts, condition, test⟩ := test
    obtain ⟨us, thenBranch, yes⟩ := yes
    obtain ⟨vs, elseBranch, no⟩ := no
    exact ⟨_, .ite condition thenBranch elseBranch, spells_append.2
      ⟨_, spells_append.2 ⟨_, ⟨_, first.stands, test⟩, _, second.stands, yes⟩, _, third.stands, no⟩⟩
  | binary op _ sign _ first second =>
    obtain ⟨ts, left, first⟩ := first
    obtain ⟨us, right, second⟩ := second
    exact ⟨_, .binary op left right, spells_append.2 ⟨_, first, _, sign.stands, second⟩⟩
  | app _ _ first second =>
    obtain ⟨ts, function, first⟩ := first
    obtain ⟨us, argument, second⟩ := second
    exact ⟨_, .app function argument, spells_append.2 ⟨_, first, second⟩⟩
  | negative numeral word fits =>
    obtain ⟨gap, rfl, blank, boundary⟩ := word.parts
    exact ⟨_, .negative numeral fits, _, ⟨gap, rfl, blank, boundary⟩, rfl⟩
  | number numeral word fits => exact ⟨_, .number numeral fits, _, word.parts, rfl⟩
  | bool b word => exact ⟨_, .bool b, _, word.stands, rfl⟩
  | error word => exact ⟨_, .error, _, word.stands, rfl⟩
  | index numeral word positive fits =>
    obtain ⟨gap, rfl, blank, boundary⟩ := word.parts
    exact ⟨_, .index numeral positive fits, _, ⟨gap, rfl, blank, boundary⟩, rfl⟩
  | var identifier word => exact ⟨_, .var identifier, _, word.stands, rfl⟩
  | parenthesized opening _ closing inner =>
    obtain ⟨ts, sentence, inner⟩ := inner
    exact ⟨_, .parenthesized sentence, spells_append.2
      ⟨_, ⟨_, opening.stands, inner⟩, _, closing.stands, rfl⟩⟩
  | weaken _ ih =>
    obtain ⟨ts, sentence, spells⟩ := ih
    exact ⟨ts, .unit sentence, spells⟩

end ErrorML.Grammar

namespace ErrorML

open Grammar

/-- The text is blanks, and then tokens from which the grammar derives the expression. -/
def Expr.Spelled (source : String) (e : Expr) : Prop :=
  ∃ gap ts text, source.toList = gap ++ text ∧ (∀ c ∈ gap, isBlank c = true) ∧ Spells ts text [] ∧
    Sentence 0 ts e

theorem Expr.spelled_iff_phrase {source : String} {e : Expr} :
    e.Spelled source ↔ Phrase 0 (skip source.toList) e [] := by
  constructor
  · rintro ⟨gap, ts, text, whole, blank, spells, sentence⟩
    have phrase := sentence.phrase skip_nil spells
    rwa [whole, skip_gap blank phrase.visible]
  · intro phrase
    obtain ⟨ts, sentence, spells⟩ := phrase.sentence
    obtain ⟨gap, whole, blank⟩ := exists_gap source.toList
    exact ⟨gap, ts, _, whole, blank, spells, sentence⟩

theorem parse_expr_iff_phrase {source : String} {e : Expr} :
    Expr.parse source = .ok e ↔ Phrase 0 (skip source.toList) e [] := by
  rw [Expr.parse, readAll_eq_ok_iff, ← expression_eq_success_iff (ends_nil 1)]
  exact ⟨And.right, fun read => ⟨expression_takes.nonempty read, read⟩⟩

/-- A text is read as an expression exactly if the grammar derives it for that expression, which is
the only one. -/
theorem parse_expr_iff_spelled :
    (∀ (source : String) (e : Expr), Expr.parse source = .ok e ↔ e.Spelled source) ∧
      ∀ (source : String) (e e' : Expr), e.Spelled source → e'.Spelled source → e = e' := by
  have parse {source : String} {e : Expr} : Expr.parse source = .ok e ↔ e.Spelled source :=
    parse_expr_iff_phrase.trans Expr.spelled_iff_phrase.symm
  refine ⟨fun _ _ => parse, fun source e e' first second => ?_⟩
  have read := parse.2 first
  rw [parse.2 second] at read
  cases read
  rfl

end ErrorML
