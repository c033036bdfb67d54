import ErrorML.Proofs.Recognition.Token
import ErrorML.Proofs.Reading.Chain

/-!
# What the expression parser accepts

The expression parser succeeds on phrases only. Every call of it is made after a token, on a shorter
input, so that a bound on the length of the input carries the induction: `Accepts n k p` says that
on inputs shorter than `n` the parser `p` succeeds on phrases of strength `k`. If that holds of the
parser of expressions for `n`, it holds of all that is built from it for `n + 1`.
-/

namespace ErrorML.Grammar

open ErrorML.Parser ErrorML.Sequence

def Accepts (n k : Nat) (p : Parser Expr) : Prop :=
  ∀ ⦃input e rest⦄, input.length < n → p input = .success e rest → Phrase k input e rest

variable {n k : Nat} {input rest : List Char} {e : Expr}

/-! ## Operands -/

theorem parenthesized_accepts (calls : Accepts n 0 expression) :
    Accepts (n + 1) 6 (parenthesized expression) := by
  intro input e rest short run
  obtain ⟨left, a, b, right, opening, inner, closing⟩ := success_of_between run
  have shorter := ((symbol_takes (by decide)).success opening).2
  exact .parenthesized (symbol_accepts opening) (calls (by omega) inner) (symbol_accepts closing)

theorem operand_accepts (signed : Bool) (calls : Accepts n 0 expression) :
    Accepts (n + 1) (if signed then 5 else 6) (operand signed expression) := by
  intro input e rest short run
  have argument (phrase : Phrase 6 input e rest) :
      Phrase (if signed then 5 else 6) input e rest := by
    cases signed with
    | true => exact phrase.weaken
    | false => exact phrase
  obtain ⟨p, member, form⟩ := success_of_firstOf run
  simp only [List.mem_cons, List.not_mem_nil, or_false] at member
  rcases member with rfl | rfl | rfl | rfl | rfl | rfl
  · exact argument (parenthesized_accepts calls short form)
  · obtain ⟨v, read, rfl⟩ := success_of_map form
    obtain ⟨digits, m, numeral, ⟨word, fits⟩ | ⟨rfl, after, rfl, word, fits⟩⟩ :=
      integer_accepts read
    · exact argument (.number numeral word fits)
    · exact .negative numeral word fits
  · obtain ⟨b, read, rfl⟩ := success_of_map form
    exact argument (.bool b (boolean_accepts read))
  · obtain ⟨_, read, rfl⟩ := success_of_map form
    exact argument (.error (keyword_accepts read))
  · obtain ⟨i, read, rfl⟩ := success_of_map form
    obtain ⟨digits, after, numeral, rfl, word, positive, fits⟩ := index_accepts read
    exact argument (.index numeral word positive fits)
  · obtain ⟨name, read, rfl⟩ := success_of_map form
    obtain ⟨identifier, word⟩ := identifier_accepts read
    exact argument (.var identifier word)

/-! ## Chains -/

theorem application_accepts (calls : Accepts n 0 expression) :
    Accepts (n + 1) 4 (application expression) := by
  intro input e rest short run
  obtain ⟨_, a, arguments, run₁, further, rfl⟩ := (Runs.of_parser run).of_next
  obtain ⟨_, _, head, run₀, first, rfl⟩ := run₁.of_next
  obtain ⟨rfl, rfl⟩ := run₀.of_of
  have takes (signed : Bool) : (operand signed expression).Takes 1 :=
    (Production.operand signed).takes Nonterminal.takes
  have start : Phrase 4 input head a := (operand_accepts true calls short first).weaken
  have begun := ((takes true).success first).2
  -- Each argument is applied to the phrase that the ones before it made.
  suffices reached : ∀ {values left}, Rounds (operand false expression) a values left →
      left.length ≤ a.length ∧ Phrase 4 input (values.foldl Expr.app head) left from
    (reached (.of_many further)).2
  intro values left rounds
  induction rounds with
  | done => exact ⟨Nat.le_refl _, start⟩
  | more before run shorter ih =>
    obtain ⟨le, function⟩ := ih
    refine ⟨by omega, ?_⟩
    rw [List.foldl_append]
    exact .app function (operand_accepts false calls (by omega) run)

theorem operators_accept {op : Operator} (positive : 1 ≤ k) (weak : k ≤ 3)
    (run : operators k input = .success op rest) :
    op.strength = k ∧ Symbol op.symbol input rest := by
  obtain rfl | rfl | rfl : k = 1 ∨ k = 2 ∨ k = 3 := by omega
  · obtain ⟨_, sign, rfl⟩ := success_of_map run
    exact ⟨rfl, symbol_accepts sign⟩
  · obtain ⟨p, member, form⟩ := success_of_firstOf run
    simp only [List.mem_cons, List.not_mem_nil, or_false] at member
    rcases member with rfl | rfl
    · obtain ⟨_, sign, rfl⟩ := success_of_map form
      exact ⟨rfl, symbol_accepts sign⟩
    · obtain ⟨_, sign, rfl⟩ := success_of_map form
      exact ⟨rfl, symbol_accepts sign⟩
  · obtain ⟨_, sign, rfl⟩ := success_of_map run
    exact ⟨rfl, symbol_accepts sign⟩

theorem chain_accepts (positive : 1 ≤ k) (weak : k ≤ 3)
    (operand : Accepts n (k + 1) (level (k + 1))) :
    Accepts n k (leftChain (level (k + 1)) (operators k)) := by
  intro input e rest short run
  obtain ⟨_, a, pairs, run₁, further, rfl⟩ := (Runs.of_parser run).of_next
  obtain ⟨_, _, first, run₀, head, rfl⟩ := run₁.of_next
  obtain ⟨rfl, rfl⟩ := run₀.of_of
  have start : Phrase k input first a := (operand short head).weaken
  have begun := ((level_takes (k + 1)).success head).2
  suffices reached : ∀ {pairs left}, Rounds (furtherOperand k) a pairs left →
      left.length ≤ a.length ∧
        Phrase k input (pairs.foldl (fun left pair => .binary pair.1 left pair.2) first) left from
    (reached (.of_many further)).2
  intro pairs left rounds
  induction rounds with
  | done => exact ⟨Nat.le_refl _, start⟩
  | more before run shorter ih =>
    obtain ⟨le, phrase⟩ := ih
    obtain ⟨_, c, right, run₁, second, rfl⟩ := (Runs.of_parser run).of_next
    obtain ⟨_, _, op, run₀, sign, rfl⟩ := run₁.of_next
    obtain ⟨rfl, rfl⟩ := run₀.of_of
    obtain ⟨rfl, symbol⟩ := operators_accept positive weak sign
    have written : op.symbol ≠ "" := by cases op <;> decide
    have less := ((symbol_takes written).success (symbol_reads symbol)).2
    refine ⟨by omega, ?_⟩
    rw [List.foldl_append]
    exact .binary op phrase symbol (operand (by omega) second)

theorem comparison_accepts (calls : Accepts n 0 expression) :
    Accepts (n + 1) 1 (comparison expression) := by
  have applications : Accepts (n + 1) 4 (level 4) := application_accepts calls
  have products : Accepts (n + 1) 3 (level 3) := chain_accepts (by decide) (by decide) applications
  have sums : Accepts (n + 1) 2 (level 2) := chain_accepts (by decide) (by decide) products
  exact chain_accepts (k := 1) (by decide) (by decide) sums

/-! ## Forms that begin with a keyword -/

theorem letIn_accepts (calls : Accepts n 0 expression) :
    Accepts (n + 1) 0 (letIn expression) := by
  intro input e rest short run
  obtain ⟨_, d, body, run₅, outer, rfl⟩ := (Runs.of_parser run).of_next
  obtain ⟨_, c, _, run₄, second, rfl⟩ := run₅.of_next
  obtain ⟨_, b, bound, run₃, inner, rfl⟩ := run₄.of_next
  obtain ⟨_, a, _, run₂, equals, rfl⟩ := run₃.of_next
  obtain ⟨_, start, name, run₁, binder, rfl⟩ := run₂.of_next
  obtain ⟨_, _, _, run₀, first, rfl⟩ := run₁.of_next
  obtain ⟨rfl, rfl⟩ := run₀.of_of
  have le₁ := ((keyword_takes (by decide)).success first).2
  have le₂ := (binder_takes.success binder).2
  have le₃ := ((symbol_takes (by decide)).success equals).2
  have le₄ := (expression_takes.success inner).2
  have le₅ := ((keyword_takes (by decide)).success second).2
  exact .letIn (keyword_accepts first) (binder_accepts binder) (symbol_accepts equals)
    (calls (by omega) inner) (keyword_accepts second) (calls (by omega) outer)

theorem letRecIn_accepts (calls : Accepts n 0 expression) :
    Accepts (n + 1) 0 (letRecIn expression) := by
  intro input e rest short run
  obtain ⟨_, f, body, run₆, outer, rfl⟩ := (Runs.of_parser run).of_next
  obtain ⟨_, d, _, run₅, third, rfl⟩ := run₆.of_next
  obtain ⟨_, c, bound, run₄, inner, rfl⟩ := run₅.of_next
  obtain ⟨_, b, _, run₃, equals, rfl⟩ := run₄.of_next
  obtain ⟨_, a, name, run₂, binder, rfl⟩ := run₃.of_next
  obtain ⟨_, start, _, run₁, second, rfl⟩ := run₂.of_next
  obtain ⟨_, _, _, run₀, first, rfl⟩ := run₁.of_next
  obtain ⟨rfl, rfl⟩ := run₀.of_of
  have le₁ := ((keyword_takes (by decide)).success first).2
  have le₂ := ((keyword_takes (by decide)).success second).2
  have le₃ := (binder_takes.success binder).2
  have le₄ := ((symbol_takes (by decide)).success equals).2
  have le₅ := (expression_takes.success inner).2
  have le₆ := ((keyword_takes (by decide)).success third).2
  exact .letRec (keyword_accepts first) (keyword_accepts second) (binder_accepts binder)
    (symbol_accepts equals) (calls (by omega) inner) (keyword_accepts third)
    (calls (by omega) outer)

theorem functionLiteral_accepts (calls : Accepts n 0 expression) {f : Function}
    (short : input.length < n + 1) (run : functionLiteral expression input = .success f rest) :
    ∃ a b c, Word "fun" input a ∧ Binder f.param a b ∧ Symbol "->" b c ∧
      Phrase 0 c f.body rest := by
  obtain ⟨_, c, body, run₃, inner, rfl⟩ := (Runs.of_parser run).of_next
  obtain ⟨_, b, _, run₂, arrow, rfl⟩ := run₃.of_next
  obtain ⟨_, a, param, run₁, binder, rfl⟩ := run₂.of_next
  obtain ⟨_, _, _, run₀, keyword, rfl⟩ := run₁.of_next
  obtain ⟨rfl, rfl⟩ := run₀.of_of
  have le₁ := ((keyword_takes (by decide)).success keyword).2
  have le₂ := (binder_takes.success binder).2
  have le₃ := ((symbol_takes (by decide)).success arrow).2
  exact ⟨a, b, c, keyword_accepts keyword, binder_accepts binder, symbol_accepts arrow,
    calls (by omega) inner⟩

theorem conditional_accepts (calls : Accepts n 0 expression) :
    Accepts (n + 1) 0 (conditional expression) := by
  intro input e rest short run
  obtain ⟨_, d, elseBranch, run₅, no, rfl⟩ := (Runs.of_parser run).of_next
  obtain ⟨_, c, _, run₄, third, rfl⟩ := run₅.of_next
  obtain ⟨_, b, thenBranch, run₃, yes, rfl⟩ := run₄.of_next
  obtain ⟨_, a, _, run₂, second, rfl⟩ := run₃.of_next
  obtain ⟨_, start, condition, run₁, test, rfl⟩ := run₂.of_next
  obtain ⟨_, _, _, run₀, first, rfl⟩ := run₁.of_next
  obtain ⟨rfl, rfl⟩ := run₀.of_of
  have le₁ := ((keyword_takes (by decide)).success first).2
  have le₂ := (expression_takes.success test).2
  have le₃ := ((keyword_takes (by decide)).success second).2
  have le₄ := (expression_takes.success yes).2
  have le₅ := ((keyword_takes (by decide)).success third).2
  exact .ite (keyword_accepts first) (calls (by omega) test) (keyword_accepts second)
    (calls (by omega) yes) (keyword_accepts third) (calls (by omega) no)

/-! ## All expressions -/

theorem forms_accept (calls : Accepts n 0 expression) : Accepts (n + 1) 0 expression := by
  intro input e rest short run
  rw [expression_unfold] at run
  obtain ⟨p, member, form⟩ := success_of_firstOf run
  simp only [List.mem_cons, List.not_mem_nil, or_false] at member
  rcases member with rfl | rfl | rfl | rfl | rfl
  · exact letIn_accepts calls short form
  · exact letRecIn_accepts calls short form
  · obtain ⟨f, literal, rfl⟩ := success_of_map form
    obtain ⟨a, b, c, keyword, param, arrow, body⟩ := functionLiteral_accepts calls short literal
    exact .fn keyword param arrow body
  · exact conditional_accepts calls short form
  · exact (comparison_accepts calls short form).weaken

theorem accepts_expression (n : Nat) : Accepts n 0 expression := by
  induction n with
  | zero =>
    intro input e rest short
    omega
  | succ n ih => exact forms_accept ih

theorem expression_accepts (run : expression input = .success e rest) : Phrase 0 input e rest :=
  accepts_expression (input.length + 1) (Nat.lt_succ_self _) run

theorem expression_eq_success_iff (ends : Ends 1 rest) :
    expression input = .success e rest ↔ Phrase 0 input e rest :=
  ⟨expression_accepts, fun phrase => phrase.read ends⟩

end ErrorML.Grammar
