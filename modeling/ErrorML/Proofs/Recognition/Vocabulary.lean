import ErrorML.Proofs.Recognition.Judgment

namespace ErrorML.Grammar

variable {t : Token} {ts : List Token} {input rest : List Char} {k : Nat} {e : Expr} {name : String}

def symbols : List String :=
  ["=", "->", "(", ")", "[", "]", ",", "|-", "+", "-", "*", "<", anonymousBinder]

inductive Token.Lexeme : Token → Prop
  | keyword {word : String} (reserved : word ∈ keywords) (other : word ≠ "evalto") :
      Lexeme (.word word)
  | identifier {name : String} (identifier : isIdentifier name = true) : Lexeme (.word name)
  | symbol {text : String} (mark : text ∈ symbols) : Lexeme (.symbol text)
  | number {digits : String} {n : Nat} (numeral : Numeral digits n) : Lexeme (.number digits)
  | negative {digits : String} {n : Nat} (numeral : Numeral digits n) : Lexeme (.negative digits)
  | index {digits : String} {n : Nat} (numeral : Numeral digits n) : Lexeme (.index digits)

theorem Token.Binds.lexeme (h : t.Binds name) : t.Lexeme := by
  cases h with
  | identifier identifier => exact .identifier identifier
  | anonymous => exact .symbol (by decide)

theorem Token.Lexeme.ne_evalto (h : t.Lexeme) : t ≠ .word "evalto" := by
  rintro rfl
  cases h with
  | keyword _ other => exact other rfl
  | identifier identifier => exact ne_of_isIdentifier identifier rfl rfl

@[simp] theorem lexeme_word {word : String} :
    (Token.word word).Lexeme ↔ isIdentifier word = true ∨ (word ∈ keywords ∧ word ≠ "evalto") := by
  constructor
  · intro h
    cases h with
    | keyword reserved other => exact .inr ⟨reserved, other⟩
    | identifier identifier => exact .inl identifier
  · rintro (identifier | ⟨reserved, other⟩)
    · exact .identifier identifier
    · exact .keyword reserved other

@[simp] theorem lexeme_symbol {text : String} : (Token.symbol text).Lexeme ↔ text ∈ symbols :=
  ⟨fun h => by cases h; assumption, .symbol⟩

theorem Sentence.lexeme (h : Sentence k ts e) : ∀ t ∈ ts, t.Lexeme := by
  induction h with
  | letIn binder _ _ inner outer | letRec binder _ _ inner outer =>
    simpa [keywords, symbols, or_imp, forall_and, binder.lexeme] using ⟨inner, outer⟩
  | fn binder _ inner =>
    simpa [keywords, symbols, binder.lexeme] using inner
  | ite _ _ _ test yes no =>
    simpa [keywords, or_imp, forall_and] using ⟨test, yes, no⟩
  | binary op _ _ first second =>
    have sign : op.symbol ∈ symbols := by cases op <;> decide
    simpa [or_imp, forall_and, sign] using ⟨first, second⟩
  | app _ _ first second => exact List.forall_mem_append.2 ⟨first, second⟩
  | parenthesized _ inner => simpa [symbols, or_imp, forall_and] using inner
  | negative numeral => exact List.forall_mem_singleton.2 (.negative numeral)
  | number numeral => exact List.forall_mem_singleton.2 (.number numeral)
  | index numeral => exact List.forall_mem_singleton.2 (.index numeral)
  | bool b => cases b <;> simp [keywords]
  | error => simp [keywords]
  | var identifier => exact List.forall_mem_singleton.2 (.identifier identifier)
  | unit _ inner => exact inner

theorem FunctionSentence.lexeme {f : Function} (h : FunctionSentence ts f) :
    ∀ t ∈ ts, t.Lexeme := by
  obtain ⟨binder, inner⟩ := h
  simpa [keywords, symbols, binder.lexeme] using inner.lexeme

mutual

theorem ValueSentence.lexeme : {ts : List Token} → {v : Value} → ValueSentence ts v →
    ∀ t ∈ ts, t.Lexeme
  | _, _, .number numeral _ => List.forall_mem_singleton.2 (.number numeral)
  | _, _, .negative numeral _ => List.forall_mem_singleton.2 (.negative numeral)
  | _, _, .bool b => by cases b <;> simp [keywords]
  | _, _, .error => by simp [keywords]
  | _, _, .closure captured literal => by
    simpa [symbols, or_imp, forall_and] using ⟨captured.lexeme, literal.lexeme⟩
  | _, _, .recClosure captured binder literal => by
    simpa [keywords, symbols, or_imp, forall_and, binder.lexeme] using
      ⟨captured.lexeme, literal.lexeme⟩

theorem EnvSentence.lexeme : {ts : List Token} → {env : Env} → EnvSentence ts env →
    ∀ t ∈ ts, t.Lexeme
  | _, _, .empty => by simp
  | _, _, .one identifier bound => by simpa [symbols, identifier] using bound.lexeme
  | _, _, .more before identifier bound => by
    simpa [symbols, or_imp, forall_and, identifier] using ⟨before.lexeme, bound.lexeme⟩

end

theorem RequestSentence.lexeme {r : Request} (h : RequestSentence ts r) : ∀ t ∈ ts, t.Lexeme := by
  cases h with
  | bare expr => exact expr.lexeme
  | turnstile bindings expr =>
    simpa [symbols, or_imp, forall_and] using ⟨bindings.lexeme, expr.lexeme⟩

def Token.Solid : Token → Prop
  | .word text => text ≠ "" ∧ text.toList.all isIdentifierChar = true
  | .symbol text => text ≠ "" ∧ text.toList.all (fun c => !isIdentifierChar c && !isBlank c) = true
  | .number digits | .negative digits | .index digits => ∃ n, Numeral digits n

theorem Token.Solid.mark {text : String} (h : (symbol text).Solid) {c : Char}
    (member : c ∈ text.toList) : isIdentifierChar c = false ∧ isBlank c = false := by
  simpa using List.all_eq_true.1 h.2 c member

theorem solid_keyword {word : String} (reserved : word ∈ keywords) : (Token.word word).Solid := by
  have all : ∀ word ∈ keywords, word ≠ "" ∧ word.toList.all isIdentifierChar = true := by
    decide
  exact all word reserved

theorem Token.Lexeme.solid (h : t.Lexeme) : t.Solid := by
  cases h with
  | keyword reserved _ => exact solid_keyword reserved
  | identifier identifier =>
    exact ⟨ne_of_isIdentifier identifier rfl, inside_of_isIdentifier identifier⟩
  | symbol mark =>
    have all : ∀ text ∈ symbols, text ≠ "" ∧
        text.toList.all (fun c => !isIdentifierChar c && !isBlank c) = true := by
      decide
    exact all _ mark
  | number numeral | negative numeral | index numeral => exact ⟨_, numeral⟩

theorem solid_of_lexemes (lexemes : ∀ t ∈ ts, t.Lexeme) : ∀ t ∈ ts, t.Solid :=
  fun t member => (lexemes t member).solid

theorem JudgmentSentence.solid {j : Judgment} (h : JudgmentSentence ts j) : ∀ t ∈ ts, t.Solid := by
  obtain ⟨request, value⟩ := h
  have evalto : (Token.word "evalto").Solid := solid_keyword (by decide)
  simp only [List.forall_mem_append, List.forall_mem_cons]
  exact ⟨solid_of_lexemes request.lexeme, evalto, solid_of_lexemes value.lexeme⟩

theorem Token.Solid.nonblank (h : t.Solid) : ∀ c ∈ t.text, isBlank c = false := by
  have inside {word : String} (all : word.toList.all isIdentifierChar = true) :
      ∀ c ∈ word.toList, isBlank c = false :=
    fun c member => isBlank_of_isIdentifierChar (List.all_eq_true.1 all c member)
  cases t with
  | word => exact inside h.2
  | symbol => exact fun c member => (h.mark member).2
  | number =>
    obtain ⟨n, numeral⟩ := h
    exact inside numeral.inside
  | negative =>
    obtain ⟨n, numeral⟩ := h
    exact List.forall_mem_cons.2 ⟨rfl, inside numeral.inside⟩
  | index =>
    obtain ⟨n, numeral⟩ := h
    exact List.forall_mem_cons.2 ⟨rfl, inside numeral.inside⟩

theorem Token.Solid.text_ne_nil (h : t.Solid) : t.text ≠ [] := by
  cases t with
  | word | symbol => exact fun empty => h.1 (String.toList_eq_nil_iff.1 empty)
  | number =>
    obtain ⟨n, numeral⟩ := h
    exact fun empty => numeral.nonempty (String.toList_eq_nil_iff.1 empty)
  | negative | index => exact List.cons_ne_nil _ _

theorem Token.Solid.visible (h : t.Solid) (stands : t.Stands input rest) : Visible input := by
  obtain ⟨gap, rfl, -, -⟩ := stands
  cases spelled : t.text with
  | nil => exact absurd spelled h.text_ne_nil
  | cons c more => exact visible_cons (h.nonblank c (by simp [spelled])) _

theorem spells_visible (solid : ∀ t ∈ ts, t.Solid) (spells : Spells ts input []) :
    Visible input := by
  cases ts with
  | nil =>
    cases spells
    exact skip_nil
  | cons t ts =>
    obtain ⟨middle, first, -⟩ := spells
    exact (solid t (.head ts)).visible first

theorem Token.Solid.eq_word (h : t.Solid) (stands : t.Stands input rest) {c : Char}
    {more : List Char} (spelled : (leadingWord input).toList = c :: more)
    (letter : c.isDigit = false) : t = .word (leadingWord input) := by
  have mark {d : Char} (outside : isIdentifierChar d = false) (after : List Char) :
      input ≠ d :: after := by
    rintro rfl
    rw [leadingWord_cons outside] at spelled
    cases spelled
  obtain ⟨gap, whole, -, parted⟩ := stands
  cases t with
  | word text =>
    have word := Word.append text h.2 parted
    rw [whole]
    exact congrArg Token.word word.1.symm
  | symbol text =>
    cases written : text.toList with
    | nil => exact absurd (String.toList_eq_nil_iff.1 written) h.1
    | cons d others =>
      rw [Token.text, written] at whole
      exact absurd whole (mark (h.mark (c := d) (by simp [written])).1 _)
  | number digits =>
    obtain ⟨n, numeral⟩ := h
    have word := Word.append digits numeral.inside parted
    rw [whole, Token.text, word.1] at spelled
    have digit := numeral.digit c (by simp [spelled])
    rw [letter] at digit
    cases digit
  | negative => exact absurd whole (mark rfl _)
  | index => exact absurd whole (mark rfl _)

end ErrorML.Grammar
