import ErrorML.Proofs.Reading.Phrase

/-!
# Chains of operands

The grammar of expressions is left-recursive, while the parsers run through a chain of operands and
fold it from the left. The two meet in `Reaches k input expr rest`: the parser of strength `k`,
before it looks for a further operand, has come to `rest` and holds `expr`. An operator with its
right operand, or an argument, is then one more round.
-/

namespace ErrorML.Grammar

open ErrorML.Parser ErrorML.Sequence

def level : Nat → Parser Expr
  | 0 => expression
  | 1 => comparison expression
  | 2 => sum expression
  | 3 => product expression
  | 4 => application expression
  | _ => operand true expression

def operators : Nat → Parser Operator
  | 1 => (symbol "<").map fun _ => .less
  | 2 => firstOf [(symbol "+").map fun _ => .plus, (symbol "-").map fun _ => .minus]
  | _ => (symbol "*").map fun _ => .times

def furtherOperand (k : Nat) : Parser (Operator × Expr) :=
  ((Sequence.of Prod.mk).next (operators k) |>.next (level (k + 1))).parser

theorem comparison_eq : comparison expression = leftChain (level 2) (operators 1) := rfl

theorem sum_eq : sum expression = leftChain (level 3) (operators 2) := rfl

theorem product_eq : product expression = leftChain (level 4) (operators 3) := rfl

def ChainReaches (k : Nat) (input : List Char) (expr : Expr) (rest : List Char) : Prop :=
  ∃ first middle pairs, level (k + 1) input = .success first middle ∧
    Rounds (furtherOperand k) middle pairs rest ∧
    pairs.foldl (fun left (op, right) => .binary op left right) first = expr

def ApplicationReaches (input : List Char) (expr : Expr) (rest : List Char) : Prop :=
  ∃ head middle arguments, operand true expression input = .success head middle ∧
    Rounds (operand false expression) middle arguments rest ∧ arguments.foldl Expr.app head = expr

/-- The parser of strength `k` comes to `rest` with `expr`, and then looks for a further operand. -/
def Reaches : Nat → List Char → Expr → List Char → Prop
  | 0 => fun input expr rest => expression input = .success expr rest
  | 1 => ChainReaches 1
  | 2 => ChainReaches 2
  | 3 => ChainReaches 3
  | 4 => ApplicationReaches
  | 5 => fun input expr rest => operand true expression input = .success expr rest
  | 6 => fun input expr rest => ∀ signed, operand signed expression input = .success expr rest
  | _ + 7 => fun _ _ _ => False

variable {input middle rest : List Char} {k : Nat} {e left right : Expr} {op : Operator}

/-! ## Operators -/

theorem operators_read (h : Symbol op.symbol input rest) :
    operators op.strength input = .success op rest := by
  have read := symbol_reads h
  cases op with
  | plus => exact firstOf_success _ (map_success _ read)
  | minus =>
    obtain ⟨after, rfl, -⟩ := h
    have first : (Operator.minus.symbol.toList ++ after).head? = some '-' := rfl
    have other : (symbol "+").Fails (Operator.minus.symbol.toList ++ after) := by
      apply symbol_fails rfl
      rw [first]
      decide
    have minus := firstOf_success [] (map_success (fun _ => Operator.minus) read)
    exact firstOf_of_fails (other.map fun _ => Operator.plus) minus
  | times => exact map_success _ read
  | less => exact map_success _ read

theorem operators_fail (h : Ends k rest) (positive : 1 ≤ k) (weak : k ≤ 3) :
    (operators k).Fails rest := by
  obtain rfl | rfl | rfl : k = 1 ∨ k = 2 ∨ k = 3 := by omega
  · exact (h.operator .less (Nat.le_refl 1)).map _
  · apply firstOf_fails
    intro sign member
    simp only [List.mem_cons, List.not_mem_nil, or_false] at member
    rcases member with rfl | rfl
    · exact (h.operator .plus (Nat.le_refl 2)).map _
    · exact (h.operator .minus (Nat.le_refl 2)).map _
  · exact (h.operator .times (Nat.le_refl 3)).map _

/-! ## One chain -/

theorem level_takes (k : Nat) : (level k).Takes 1 := by
  match k with
  | 0 => exact expression_takes
  | 1 => exact Production.comparison.takes Nonterminal.takes
  | 2 => exact Production.sum.takes Nonterminal.takes
  | 3 => exact Production.product.takes Nonterminal.takes
  | 4 => exact Production.application.takes Nonterminal.takes
  | _ + 5 => exact (Production.operand true).takes Nonterminal.takes

theorem ChainReaches.start (read : level (k + 1) input = .success e rest) :
    ChainReaches k input e rest :=
  ⟨e, rest, [], read, .done, rfl⟩

theorem ChainReaches.more (h : ChainReaches op.strength input left middle)
    {after : List Char} (sign : Symbol op.symbol middle after)
    (read : level (op.strength + 1) after = .success right rest) :
    ChainReaches op.strength input (.binary op left right) rest := by
  obtain ⟨first, start, pairs, head, rounds, folded⟩ := h
  have round : furtherOperand op.strength middle = .success (op, right) rest :=
    ((Runs.of _ middle).next (operators_read sign) |>.next read).parser
  have shorter : rest.length < middle.length := by
    have written : op.symbol ≠ "" := by cases op <;> decide
    have before := ((symbol_takes written).success (symbol_reads sign)).2
    have after := ((level_takes _).success read).2
    omega
  refine ⟨first, start, pairs ++ [(op, right)], head, rounds.more round shorter, ?_⟩
  rw [List.foldl_append, folded]
  rfl

theorem ChainReaches.read (h : ChainReaches k input e rest) (ended : (operators k).Fails rest) :
    leftChain (level (k + 1)) (operators k) input = .success e rest := by
  obtain ⟨first, start, pairs, head, rounds, rfl⟩ := h
  have stopped : (furtherOperand k).Fails rest := ((Runs.of _ rest).stops ended |>.next _).parser
  exact ((Runs.of _ input).next head |>.next (rounds.many stopped)).parser

theorem ApplicationReaches.start (read : operand true expression input = .success e rest) :
    ApplicationReaches input e rest :=
  ⟨e, rest, [], read, .done, rfl⟩

theorem ApplicationReaches.more (h : ApplicationReaches input left middle)
    (read : operand false expression middle = .success right rest) :
    ApplicationReaches input (.app left right) rest := by
  obtain ⟨head, start, arguments, operand, rounds, folded⟩ := h
  have shorter : rest.length < middle.length :=
    (((Production.operand false).takes Nonterminal.takes).success read).2
  refine ⟨head, start, arguments ++ [right], operand, rounds.more read shorter, ?_⟩
  rw [List.foldl_append, folded]
  rfl

theorem ApplicationReaches.read (h : ApplicationReaches input e rest)
    (ended : (operand false expression).Fails rest) :
    application expression input = .success e rest := by
  obtain ⟨head, start, arguments, operand, rounds, rfl⟩ := h
  exact ((Runs.of _ input).next operand |>.next (rounds.many ended)).parser

/-! ## All strengths -/

theorem reaches_strength (op : Operator) : Reaches op.strength = ChainReaches op.strength := by
  cases op <;> rfl

theorem Reaches.read (h : Reaches k input e rest) (ends : Ends k rest) :
    level k input = .success e rest := by
  match k with
  | 0 => exact h
  | 1 =>
    change comparison expression input = _
    rw [comparison_eq]
    exact ChainReaches.read h (operators_fail ends (by decide) (by decide))
  | 2 =>
    change sum expression input = _
    rw [sum_eq]
    exact ChainReaches.read h (operators_fail ends (by decide) (by decide))
  | 3 =>
    change product expression input = _
    rw [product_eq]
    exact ChainReaches.read h (operators_fail ends (by decide) (by decide))
  | 4 => exact ApplicationReaches.read h (ends.argument (Nat.le_refl 4) expression)
  | 5 => exact h
  | 6 => exact h true
  | _ + 7 => cases h

/-! ## Forms that begin with a keyword -/

section Forms

variable {p : Parser Expr} {a b c d f g : List Char} {name : String} {bound body : Expr}

theorem letIn_fails (p : Parser Expr) (other : leadingWord input ≠ "let") :
    (letIn p).Fails input :=
  ((Runs.of _ input).stops (keyword_fails other) |>.next _ |>.next _ |>.next _ |>.next _
    |>.next _).parser

theorem letRecIn_fails (p : Parser Expr) (other : leadingWord input ≠ "let") :
    (letRecIn p).Fails input :=
  ((Runs.of _ input).stops (keyword_fails other) |>.next _ |>.next _ |>.next _ |>.next _
    |>.next _ |>.next _).parser

theorem functionLiteral_fails (p : Parser Expr) (other : leadingWord input ≠ "fun") :
    (functionLiteral p).Fails input :=
  ((Runs.of _ input).stops (keyword_fails other) |>.next _ |>.next _ |>.next _).parser

theorem conditional_fails (p : Parser Expr) (other : leadingWord input ≠ "if") :
    (conditional p).Fails input :=
  ((Runs.of _ input).stops (keyword_fails other) |>.next _ |>.next _ |>.next _ |>.next _
    |>.next _).parser

theorem binder_fails_at_rec (h : Word "rec" input rest) : binder.Fails input := by
  apply firstOf_fails
  intro form member
  simp only [List.mem_cons, List.not_mem_nil, or_false] at member
  rcases member with rfl | rfl
  · exact identifier_fails (by rw [h.1]; rfl)
  · have spelled : "rec".toList = 'r' :: ['e', 'c'] := rfl
    exact Fails.map _ (symbol_fails rfl (h.starts spelled rfl))

theorem letIn_fails_at_rec (p : Parser Expr) (first : Word "let" input a)
    (second : Word "rec" a b) : (letIn p).Fails input :=
  ((Runs.of _ input).next (keyword_reads first) |>.stops (binder_fails_at_rec second) |>.next _
    |>.next _ |>.next _ |>.next _).parser

theorem functionLiteral_reads (keyword : Word "fun" input a) (param : Binder name a b)
    (arrow : Symbol "->" b c) (inner : p c = .success body rest) :
    functionLiteral p input = .success ⟨name, body⟩ rest :=
  ((Runs.of _ input).next (keyword_reads keyword) |>.next (binder_reads param)
    |>.next (symbol_reads arrow) |>.next inner).parser

theorem expression_letIn (first : Word "let" input a) (binder : Binder name a b)
    (equals : Symbol "=" b c) (inner : expression c = .success bound d) (second : Word "in" d f)
    (outer : expression f = .success body rest) :
    expression input = .success (.letIn name bound body) rest := by
  have read : letIn expression input = .success (.letIn name bound body) rest :=
    ((Runs.of _ input).next (keyword_reads first) |>.next (binder_reads binder)
      |>.next (symbol_reads equals) |>.next inner |>.next (keyword_reads second)
      |>.next outer).parser
  rw [expression_unfold]
  exact firstOf_success _ read

theorem expression_letRec (first : Word "let" input a) (second : Word "rec" a b)
    (binder : Binder name b c) (equals : Symbol "=" c d)
    (inner : expression d = .success bound f) (third : Word "in" f g)
    (outer : expression g = .success body rest) :
    expression input = .success (.letRec name bound body) rest := by
  have read : letRecIn expression input = .success (.letRec name bound body) rest :=
    ((Runs.of _ input).next (keyword_reads first) |>.next (keyword_reads second)
      |>.next (binder_reads binder) |>.next (symbol_reads equals) |>.next inner
      |>.next (keyword_reads third) |>.next outer).parser
  rw [expression_unfold]
  apply firstOf_of_fails (letIn_fails_at_rec expression first second)
  exact firstOf_success _ read

theorem expression_fn (keyword : Word "fun" input a) (param : Binder name a b)
    (arrow : Symbol "->" b c) (inner : expression c = .success body rest) :
    expression input = .success (.fn name body) rest := by
  have read := functionLiteral_reads keyword param arrow inner
  have other : leadingWord input ≠ "let" := by
    rw [keyword.1]
    decide
  rw [expression_unfold]
  apply firstOf_of_fails (letIn_fails expression other)
  apply firstOf_of_fails (letRecIn_fails expression other)
  exact firstOf_success _ (map_success Function.expr read)

theorem expression_ite {condition thenBranch elseBranch : Expr} (first : Word "if" input a)
    (test : expression a = .success condition b) (second : Word "then" b c)
    (yes : expression c = .success thenBranch d) (third : Word "else" d f)
    (no : expression f = .success elseBranch rest) :
    expression input = .success (.ite condition thenBranch elseBranch) rest := by
  have read : conditional expression input =
      .success (.ite condition thenBranch elseBranch) rest :=
    ((Runs.of _ input).next (keyword_reads first) |>.next test |>.next (keyword_reads second)
      |>.next yes |>.next (keyword_reads third) |>.next no).parser
  have other : leadingWord input ≠ "let" ∧ leadingWord input ≠ "fun" := by
    rw [first.1]
    decide
  rw [expression_unfold]
  apply firstOf_of_fails (letIn_fails expression other.1)
  apply firstOf_of_fails (letRecIn_fails expression other.1)
  apply firstOf_of_fails ((functionLiteral_fails expression other.2).map _)
  exact firstOf_success _ read

theorem expression_comparison (read : comparison expression input = .success e rest)
    (other : leadingWord input ∉ ["let", "fun", "if"]) : expression input = .success e rest := by
  simp only [List.mem_cons, List.not_mem_nil, or_false, not_or] at other
  rw [expression_unfold]
  apply firstOf_of_fails (letIn_fails expression other.1)
  apply firstOf_of_fails (letRecIn_fails expression other.1)
  apply firstOf_of_fails ((functionLiteral_fails expression other.2.1).map _)
  apply firstOf_of_fails (conditional_fails expression other.2.2)
  exact firstOf_success _ read

end Forms

/-! ## Phrases -/

theorem Phrase.noKeyword (h : Phrase k input e rest) (positive : 1 ≤ k) :
    leadingWord input ∉ ["let", "fun", "if"] := by
  have mark {c : Char} (outside : isIdentifierChar c = false) (rest : List Char) :
      leadingWord (c :: rest) ∉ ["let", "fun", "if"] := by
    rw [leadingWord_cons outside]
    decide
  induction h with
  | letIn | letRec | fn | ite => omega
  | binary op _ _ _ left _ =>
    apply left
    cases op <;> decide
  | app _ _ function _ => exact function (by decide)
  | negative => exact mark rfl _
  | number numeral word _ =>
    rw [word.1]
    intro member
    simp only [List.mem_cons, List.not_mem_nil, or_false] at member
    have digit := numeral.digit
    rcases member with rfl | rfl | rfl
    · exact absurd (digit 'l' (by decide)) (by decide)
    · exact absurd (digit 'f' (by decide)) (by decide)
    · exact absurd (digit 'i' (by decide)) (by decide)
  | bool b word =>
    rw [word.1]
    cases b <;> decide
  | error word =>
    rw [word.1]
    decide
  | index => exact mark rfl _
  | var identifier word =>
    rw [word.1]
    intro member
    simp only [List.mem_cons, List.not_mem_nil, or_false] at member
    rcases member with rfl | rfl | rfl <;> cases identifier
  | parenthesized opening _ _ _ =>
    obtain ⟨after, rfl, -⟩ := opening
    exact mark rfl _
  | weaken _ ih => exact ih (by omega)

theorem Reaches.weaken (h : Reaches (k + 1) input e rest) (ends : Ends (k + 1) rest)
    (other : k = 0 → leadingWord input ∉ ["let", "fun", "if"]) : Reaches k input e rest := by
  match k with
  | 0 => exact expression_comparison (h.read ends) (other rfl)
  | 1 => exact ChainReaches.start (h.read ends)
  | 2 => exact ChainReaches.start (h.read ends)
  | 3 => exact ChainReaches.start (h.read ends)
  | 4 => exact ApplicationReaches.start h
  | 5 => exact h true
  | _ + 6 => cases h

theorem Phrase.reaches (h : Phrase k input e rest) (ends : Ends (k + 1) rest) :
    Reaches k input e rest := by
  induction h with
  | letIn first binder equals _ second _ inner outer =>
    exact expression_letIn first binder equals (inner (ends_of_word second (by decide) 1)) second
      (outer ends)
  | letRec first second binder equals _ third _ inner outer =>
    exact expression_letRec first second binder equals (inner (ends_of_word third (by decide) 1))
      third (outer ends)
  | fn keyword param arrow _ inner => exact expression_fn keyword param arrow (inner ends)
  | ite first _ second _ third _ test yes no =>
    exact expression_ite first (test (ends_of_word second (by decide) 1)) second
      (yes (ends_of_word third (by decide) 1)) third (no ends)
  | binary op _ sign _ left right =>
    -- The left operand ends before the sign, and the right one where the phrase does.
    have before := left (ends_of_operator sign)
    have after := (right (ends.mono (Nat.le_succ _))).read ends
    rw [reaches_strength] at before ⊢
    exact before.more sign after
  | app _ _ function argument =>
    have before := function (ends_of_operand (Nat.le_refl 5) _)
    exact ApplicationReaches.more before (argument (ends_of_operand (by decide) _) false)
  | negative numeral word fits =>
    exact operand_int (by simp) (negative_reads numeral word fits)
  | number numeral word fits =>
    intro signed
    obtain ⟨c, first, digit⟩ := numeral.head word
    refine operand_int ?_ (integer_reads signed numeral word fits)
    rw [first]
    rintro ⟨⟩
    exact absurd digit (by decide)
  | bool b word => exact fun signed => operand_bool signed word
  | error word => exact fun signed => operand_error signed word
  | index numeral word positive fits =>
    exact fun signed => operand_index signed (index_reads numeral word positive fits)
  | var identifier word => exact fun signed => operand_var signed identifier word
  | parenthesized opening _ closing inner =>
    intro signed
    obtain ⟨after, rfl, blanks⟩ := closing
    have ended := ends_of_mark (c := ')') (by simp) 1 after
    exact operand_parenthesized signed opening (inner ended) ⟨after, rfl, blanks⟩
  | weaken phrase ih =>
    apply (ih (ends.mono (Nat.le_succ _))).weaken ends
    intro zero
    exact phrase.noKeyword (by omega)

theorem Phrase.read (h : Phrase 0 input e rest) (ends : Ends 1 rest) :
    expression input = .success e rest :=
  h.reaches ends

end ErrorML.Grammar
