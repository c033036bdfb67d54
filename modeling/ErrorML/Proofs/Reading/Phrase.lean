import ErrorML.Proofs.Parsing.Recursion
import ErrorML.Proofs.Parsing.Repetition
import ErrorML.Proofs.Reading.Token

namespace ErrorML.Grammar

open ErrorML.Parser ErrorML.Sequence

/-- The input up to `rest` is an expression in writing, of strength at least `k`: 0 for any form, 1
to 3 for the operands of comparisons, sums and products, 4 for an application, 5 for its head and 6
for an argument. -/
inductive Phrase : Nat → List Char → Expr → List Char → Prop
  | letIn {input a b c d e rest name bound body} :
      Word "let" input a → Binder name a b → Symbol "=" b c → Phrase 0 c bound d →
      Word "in" d e → Phrase 0 e body rest → Phrase 0 input (.letIn name bound body) rest
  | letRec {input a b c d e f rest name bound body} :
      Word "let" input a → Word "rec" a b → Binder name b c → Symbol "=" c d →
      Phrase 0 d bound e → Word "in" e f → Phrase 0 f body rest →
      Phrase 0 input (.letRec name bound body) rest
  | fn {input a b c rest param body} :
      Word "fun" input a → Binder param a b → Symbol "->" b c → Phrase 0 c body rest →
      Phrase 0 input (.fn param body) rest
  | ite {input a b c d e rest condition thenBranch elseBranch} :
      Word "if" input a → Phrase 0 a condition b → Word "then" b c → Phrase 0 c thenBranch d →
      Word "else" d e → Phrase 0 e elseBranch rest →
      Phrase 0 input (.ite condition thenBranch elseBranch) rest
  | binary (op : Operator) {input a b rest left right} :
      Phrase op.strength input left a → Symbol op.symbol a b →
      Phrase (op.strength + 1) b right rest → Phrase op.strength input (.binary op left right) rest
  | app {input a rest function argument} :
      Phrase 4 input function a → Phrase 6 a argument rest →
      Phrase 4 input (.app function argument) rest
  | negative {input rest digits n v} :
      Numeral digits n → Word digits input rest → int64? (-n) = some v →
      Phrase 5 ('-' :: input) (.int v) rest
  | number {input rest digits n v} :
      Numeral digits n → Word digits input rest → int64? n = some v → Phrase 6 input (.int v) rest
  | bool (b : Bool) {input rest} :
      Word (if b then "true" else "false") input rest → Phrase 6 input (.bool b) rest
  | error {input rest} : Word "error" input rest → Phrase 6 input .error rest
  | index {input rest digits n} :
      Numeral digits n → Word digits input rest → 1 ≤ n → n ≤ maxWord →
      Phrase 6 ('#' :: input) (.index n) rest
  | var {input rest name} :
      isIdentifier name = true → Word name input rest → Phrase 6 input (.var name) rest
  | parenthesized {input a b rest expr} :
      Symbol "(" input a → Phrase 0 a expr b → Symbol ")" b rest → Phrase 6 input expr rest
  | weaken {input rest expr k} : Phrase (k + 1) input expr rest → Phrase k input expr rest

/-- What follows goes on with no phrase of strength `k` or more: no argument and no operator that
binds as strongly stands there. -/
structure Ends (k : Nat) (rest : List Char) : Prop where
  argument : k ≤ 4 → ∀ p, (operand false p).Fails rest
  operator : ∀ op : Operator, k ≤ op.strength → (symbol op.symbol).Fails rest

theorem Ends.mono {j k : Nat} {rest : List Char} (h : Ends j rest) (le : j ≤ k) : Ends k rest where
  argument := fun four => h.argument (Nat.le_trans le four)
  operator := fun op strong => h.operator op (Nat.le_trans le strong)

theorem ends_of_operand {k : Nat} (strong : 5 ≤ k) (rest : List Char) : Ends k rest where
  argument := by
    intro weak
    omega
  operator := by
    intro op weak
    have bound : op.strength ≤ 3 := by cases op <;> decide
    omega

variable {input rest : List Char} {k : Nat} {e : Expr}

/-! ## How phrases begin -/

theorem Phrase.opening (h : Phrase k input e rest) :
    (∃ word after, word ≠ "" ∧ Word word input after) ∨
      ∃ c after, c ∈ ['(', '-', '#'] ∧ input = c :: after := by
  induction h with
  | letIn first => exact .inl ⟨_, _, by decide, first⟩
  | letRec first => exact .inl ⟨_, _, by decide, first⟩
  | fn keyword => exact .inl ⟨_, _, by decide, keyword⟩
  | ite first => exact .inl ⟨_, _, by decide, first⟩
  | binary _ _ _ _ left _ => exact left
  | app _ _ function _ => exact function
  | negative => exact .inr ⟨'-', _, by simp, rfl⟩
  | number numeral word _ => exact .inl ⟨_, _, numeral.nonempty, word⟩
  | bool b word => exact .inl ⟨_, _, by cases b <;> decide, word⟩
  | error word => exact .inl ⟨_, _, by decide, word⟩
  | index => exact .inr ⟨'#', _, by simp, rfl⟩
  | var identifier word => exact .inl ⟨_, _, ne_of_isIdentifier identifier rfl, word⟩
  | parenthesized opening _ _ _ =>
    obtain ⟨after, rfl, -⟩ := opening
    exact .inr ⟨'(', after, by simp, rfl⟩
  | weaken _ ih => exact ih

theorem Phrase.visible (h : Phrase k input e rest) : Visible input := by
  rcases h.opening with ⟨word, after, nonempty, h⟩ | ⟨c, after, mark, rfl⟩
  · exact h.visible nonempty
  · simp only [List.mem_cons, List.not_mem_nil, or_false] at mark
    rcases mark with rfl | rfl | rfl <;> exact visible_cons rfl after

theorem Phrase.starts (h : Phrase k input e rest) {c : Char} (outside : isIdentifierChar c = false)
    (mark : c ∉ ['(', '-', '#']) : input.head? ≠ some c := by
  rcases h.opening with ⟨word, after, nonempty, h⟩ | ⟨d, after, other, rfl⟩
  · obtain ⟨d, first, inside⟩ := h.exists_head nonempty
    rw [first]
    rintro ⟨⟩
    rw [outside] at inside
    cases inside
  · rintro ⟨⟩
    exact mark other

/-! ## Operands -/

section Operands

variable {p : Parser Expr}

theorem parenthesized_fails (p : Parser Expr) (other : input.head? ≠ some '(') :
    (parenthesized p).Fails input :=
  ((Runs.of _ input).stops (symbol_fails rfl other) |>.next _ |>.next _).parser

theorem operand_parenthesized {a b : List Char} (signed : Bool) (opening : Symbol "(" input a)
    (inner : p a = .success e b) (closing : Symbol ")" b rest) :
    operand signed p input = .success e rest :=
  firstOf_success _ ((Runs.of _ input).next (symbol_reads opening) |>.next inner
    |>.next (symbol_reads closing)).parser

theorem operand_int {signed : Bool} {v : Int64} (other : input.head? ≠ some '(')
    (read : integer signed input = .success v rest) :
    operand signed p input = .success (.int v) rest := by
  apply firstOf_of_fails (parenthesized_fails p other)
  exact firstOf_success _ (map_success _ read)

theorem operand_word {signed : Bool} {word : String} {c : Char} {more : List Char}
    (h : Word word input rest) (spelled : word.toList = c :: more) (digit : c.isDigit = false)
    (read : firstOf [boolean.map .bool, (keyword "error").map fun _ => .error, index.map .index,
      identifier.map .var] input = .success e rest) :
    operand signed p input = .success e rest := by
  apply firstOf_of_fails (parenthesized_fails p (h.starts spelled rfl))
  exact firstOf_of_fails ((h.integer_fails spelled digit signed).map _) read

theorem operand_bool (signed : Bool) {b : Bool}
    (h : Word (if b then "true" else "false") input rest) :
    operand signed p input = .success (.bool b) rest := by
  have read : boolean input = .success b rest := boolean_reads h
  have spelled : ∃ c more, (if b then "true" else "false").toList = c :: more ∧
      c.isDigit = false := by
    cases b with
    | true => exact ⟨'t', ['r', 'u', 'e'], rfl, rfl⟩
    | false => exact ⟨'f', ['a', 'l', 's', 'e'], rfl, rfl⟩
  obtain ⟨c, more, spelled, digit⟩ := spelled
  exact operand_word h spelled digit (firstOf_success _ (map_success _ read))

theorem operand_error (signed : Bool) (h : Word "error" input rest) :
    operand signed p input = .success .error rest := by
  have other : leadingWord input ≠ "true" ∧ leadingWord input ≠ "false" := by
    rw [h.1]
    decide
  apply operand_word h rfl (by decide)
  apply firstOf_of_fails ((boolean_fails other).map _)
  exact firstOf_success _ (map_success _ (keyword_reads h))

theorem operand_index (signed : Bool) {n : Nat} (read : index ('#' :: input) = .success n rest) :
    operand signed p ('#' :: input) = .success (.index n) rest := by
  have word := leadingWord_cons (c := '#') rfl input
  have other : ∀ keyword, "" ≠ keyword → leadingWord ('#' :: input) ≠ keyword := by
    rintro keyword different rfl
    exact different word.symm
  have digit : ∀ c ∈ ('#' :: input).head?, c.isDigit = false := by
    rintro c ⟨⟩
    decide
  apply firstOf_of_fails (parenthesized_fails p (by simp))
  apply firstOf_of_fails ((integer_fails digit (by simp)).map _)
  apply firstOf_of_fails ((boolean_fails ⟨other _ (by decide), other _ (by decide)⟩).map _)
  apply firstOf_of_fails ((keyword_fails (other _ (by decide))).map _)
  exact firstOf_success _ (map_success _ read)

theorem operand_var (signed : Bool) {name : String} (identifier : isIdentifier name = true)
    (h : Word name input rest) : operand signed p input = .success (.var name) rest := by
  obtain ⟨c, more, spelled, digit⟩ := exists_cons_of_isIdentifier identifier
  have other : ∀ keyword, isIdentifier keyword = false → leadingWord input ≠ keyword := by
    rw [h.1]
    intro keyword reserved
    exact ne_of_isIdentifier identifier reserved
  apply operand_word h spelled digit
  apply firstOf_of_fails ((boolean_fails ⟨other _ rfl, other _ rfl⟩).map _)
  apply firstOf_of_fails ((keyword_fails (other _ rfl)).map _)
  apply firstOf_of_fails ((index_fails (h.starts spelled rfl)).map _)
  exact firstOf_success _ (map_success _ (identifier_reads identifier h))

theorem operand_fails (p : Parser Expr) (opening : input.head? ≠ some '(')
    (digit : ∀ c ∈ input.head?, c.isDigit = false) (sharp : input.head? ≠ some '#')
    (word : leadingWord input ∉ ["true", "false", "error"])
    (reserved : isIdentifier (leadingWord input) = false) : (operand false p).Fails input := by
  simp only [List.mem_cons, List.not_mem_nil, or_false, not_or] at word
  obtain ⟨notTrue, notFalse, notError⟩ := word
  apply firstOf_fails
  intro form member
  simp only [List.mem_cons, List.not_mem_nil, or_false] at member
  rcases member with rfl | rfl | rfl | rfl | rfl | rfl
  · exact parenthesized_fails p opening
  · exact (integer_fails digit (by simp)).map _
  · exact (boolean_fails ⟨notTrue, notFalse⟩).map _
  · exact (keyword_fails notError).map _
  · exact (index_fails sharp).map _
  · exact (identifier_fails reserved).map _

end Operands

/-! ## What may follow -/

theorem exists_sign (op : Operator) :
    ∃ c, op.symbol.toList = [c] ∧ isIdentifierChar c = false ∧ isBlank c = false ∧
      c ∈ ['+', '-', '*', '<'] := by
  cases op with
  | plus => exact ⟨'+', rfl, by decide⟩
  | minus => exact ⟨'-', rfl, by decide⟩
  | times => exact ⟨'*', rfl, by decide⟩
  | less => exact ⟨'<', rfl, by decide⟩

theorem argument_fails {c : Char} (outside : isIdentifierChar c = false) (opening : c ≠ '(')
    (sharp : c ≠ '#') (rest : List Char) (p : Parser Expr) :
    (operand false p).Fails (c :: rest) := by
  have empty := leadingWord_cons outside rest
  have digit : ∀ d ∈ (c :: rest).head?, d.isDigit = false := by
    rintro d ⟨⟩
    exact isDigit_eq_false outside
  apply operand_fails p _ digit
  · rw [List.head?_cons]
    exact fun same => sharp (Option.some.inj same)
  · rw [empty]
    decide
  · rw [empty]
    rfl
  · rw [List.head?_cons]
    exact fun same => opening (Option.some.inj same)

theorem ends_nil (k : Nat) : Ends k [] where
  argument := by
    intro _ p
    exact operand_fails p (by simp) (by simp) (by simp) (by decide) rfl
  operator := by
    intro op _
    obtain ⟨c, spelled, -⟩ := exists_sign op
    exact symbol_fails spelled (by simp)

theorem ends_of_mark {c : Char} (mark : c ∈ [')', ']', ',']) (k : Nat) (rest : List Char) :
    Ends k (c :: rest) where
  argument := by
    intro _ p
    simp only [List.mem_cons, List.not_mem_nil, or_false] at mark
    rcases mark with rfl | rfl | rfl <;>
      exact argument_fails (by decide) (by decide) (by decide) rest p
  operator := by
    intro op _
    obtain ⟨d, spelled, -, -, sign⟩ := exists_sign op
    apply symbol_fails spelled
    rw [List.head?_cons]
    intro same
    rw [← Option.some.inj same] at sign
    simp only [List.mem_cons, List.not_mem_nil, or_false] at mark
    rcases mark with rfl | rfl | rfl <;> exact absurd sign (by decide)

theorem ends_of_word {word : String} (h : Word word input rest)
    (separator : word ∈ ["then", "else", "in", "evalto"]) (k : Nat) : Ends k input := by
  have facts : (∃ c more, word.toList = c :: more ∧ c.isDigit = false) ∧
      word ∉ ["true", "false", "error"] ∧ isIdentifier word = false := by
    simp only [List.mem_cons, List.not_mem_nil, or_false] at separator
    rcases separator with rfl | rfl | rfl | rfl
    · exact ⟨⟨'t', ['h', 'e', 'n'], rfl, rfl⟩, by decide, rfl⟩
    · exact ⟨⟨'e', ['l', 's', 'e'], rfl, rfl⟩, by decide, rfl⟩
    · exact ⟨⟨'i', ['n'], rfl, rfl⟩, by decide, rfl⟩
    · exact ⟨⟨'e', ['v', 'a', 'l', 't', 'o'], rfl, rfl⟩, by decide, rfl⟩
  obtain ⟨⟨c, more, spelled, digit⟩, noValue, reserved⟩ := facts
  have first := (h.head spelled).1
  refine ⟨?_, ?_⟩
  · intro _ p
    apply operand_fails p (h.starts spelled rfl) _ (h.starts spelled rfl)
    · rw [h.1]
      exact noValue
    · rw [h.1]
      exact reserved
    · intro d member
      rw [first] at member
      cases member
      exact digit
  · intro op _
    obtain ⟨d, sign, outside, -⟩ := exists_sign op
    exact symbol_fails sign (h.starts spelled outside)

theorem ends_of_operator {op : Operator} (h : Symbol op.symbol input rest) :
    Ends (op.strength + 1) input := by
  obtain ⟨c, spelled, outside, -, sign⟩ := exists_sign op
  obtain ⟨after, rfl, -⟩ := h
  rw [spelled, List.singleton_append]
  refine ⟨?_, ?_⟩
  · intro _ p
    apply argument_fails outside
    · rintro rfl
      exact absurd sign (by decide)
    · rintro rfl
      exact absurd sign (by decide)
  · intro stronger strong
    obtain ⟨d, spelled', -⟩ := exists_sign stronger
    apply symbol_fails spelled'
    rw [List.head?_cons]
    intro same
    have signs : stronger.symbol.toList = op.symbol.toList := by
      rw [spelled, spelled', Option.some.inj same]
    cases op <;> cases stronger <;> first | omega | exact absurd signs (by decide)

end ErrorML.Grammar
