import ErrorML.Proofs.Parsing.Calls

namespace ErrorML.Grammar

open ErrorML.Parser

def Nonterminal.production : (n : Nonterminal) → Production n.Result
  | .expression => .expression
  | .value => .value
  | .environment => .environment

theorem Nonterminal.guarded (n : Nonterminal) : n.production.guarded 0 := by
  cases n <;> rfl

def uncalled {α : Type} : Parser α := fun input => .failure (.alternatives []) input

theorem uncalled_takes {α : Type} (k : Nat) : (uncalled : Parser α).Takes k where
  success := by
    intro input value rest run
    cases run
  failure := by
    intro input error rest run
    cases run
    rfl

theorem shorterThan_takes {α : Type} {p : Parser α} {k : Nat} (h : p.Takes k)
    (input : List Char) : (shorterThan input p).Takes k :=
  Takes.restrict (fun _ run => h.success run) fun _ run => h.failure run

section Take

variable {p : Parser Expr} {q : Parser Value} {r : Parser Env}

theorem Parsers.of_take (expressions : p.Takes 1) (values : q.Takes 1) (environments : r.Takes 0) :
    (of p q r).Take
  | .expression => expressions
  | .value => values
  | .environment => environments

theorem Parsers.expression_take (h : p.Takes 1) : (of p uncalled uncalled).Take :=
  of_take h (uncalled_takes 1) (uncalled_takes 0)

theorem Parsers.value_take (h : q.Takes 1) : (of uncalled q uncalled).Take :=
  of_take (uncalled_takes 1) h (uncalled_takes 0)

theorem bindings_takes (h : q.Takes 1) : (bindings q).Takes 0 :=
  Production.environment.takes (Parsers.value_take h)

end Take

theorem expression_takes : expression.Takes 1 :=
  fix_takes fun _ takes => Production.expression.takes (Parsers.expression_take takes)

theorem expression_unfold : expression = expressionForms expression := by
  funext input
  have same : ∀ n rest, rest.length < input.length →
      Parsers.of (shorterThan input expression) uncalled uncalled n rest =
        Parsers.of expression uncalled uncalled n rest := by
    intro n rest shorter
    cases n with
    | expression => exact shorterThan_of_lt expression shorter
    | value | environment => rfl
  have agree := Production.expression.parser_congr (Nonterminal.guarded .expression)
    (Parsers.expression_take (shorterThan_takes expression_takes input))
    (Parsers.expression_take expression_takes) same (Nat.le_refl _)
  rw [Production.parser_expression, Production.parser_expression] at agree
  rw [expression_eq, agree]

theorem value_takes : value.Takes 1 :=
  fix_takes fun _ takes => by
    have forms := Production.value.takes
      (Parsers.of_take expression_takes takes (bindings_takes takes))
    rwa [Production.parser_value] at forms

theorem environment_takes : environment.Takes 0 := bindings_takes value_takes

theorem bindings_congr {p q : Parser Value} {input : List Char} (first : p.Takes 1)
    (second : q.Takes 1) (same : ∀ rest, rest.length < input.length → p rest = q rest) :
    bindings p input = bindings q input := by
  have calls : ∀ n rest, rest.length < input.length →
      Parsers.of uncalled p uncalled n rest = Parsers.of uncalled q uncalled n rest := by
    intro n rest shorter
    cases n with
    | value => exact same rest shorter
    | expression | environment => rfl
  have agree := Production.environment.parser_congr (Nonterminal.guarded .environment)
    (Parsers.value_take first) (Parsers.value_take second) calls (Nat.le_refl _)
  rwa [Production.parser_environment, Production.parser_environment] at agree

theorem value_unfold : value = valueForms value := by
  funext input
  have inner := shorterThan_takes value_takes input
  have same : ∀ n rest, rest.length < input.length →
      Parsers.of expression (shorterThan input value) (bindings (shorterThan input value)) n rest =
        Parsers.of expression value (bindings value) n rest := by
    intro n rest shorter
    cases n with
    | value => exact shorterThan_of_lt value shorter
    | expression => rfl
    | environment =>
      apply bindings_congr inner value_takes
      intro left less
      exact shorterThan_of_lt value (Nat.lt_trans less shorter)
  have agree := Production.value.parser_congr (Nonterminal.guarded .value)
    (Parsers.of_take expression_takes inner (bindings_takes inner))
    (Parsers.of_take expression_takes value_takes (bindings_takes value_takes)) same (Nat.le_refl _)
  rw [Production.parser_value, Production.parser_value] at agree
  rw [value_eq, agree]

def Nonterminal.parser : Parsers := .of Grammar.expression Grammar.value Grammar.environment

theorem Nonterminal.takes : Nonterminal.parser.Take :=
  Parsers.of_take expression_takes value_takes environment_takes

theorem judgment_takes : judgment.Takes 1 :=
  (Production.judgment.takes Nonterminal.takes).weaken (by decide)

theorem request_takes : request.Takes 1 := Production.request.takes Nonterminal.takes

theorem Nonterminal.parser_unfold (n : Nonterminal) :
    n.parser = n.production.parser Nonterminal.parser := by
  cases n with
  | expression => exact expression_unfold
  | value => exact value_unfold.trans (Production.parser_value Grammar.value).symm
  | environment => rfl

/-- Like `p` on inputs shorter than `n`, while on the others it fails with a leaf. -/
def below {α : Type} (n : Nat) (p : Parser α) : Parser α := fun input =>
  if input.length < n then p input
  else .failure (.leaf (.refused "too long") (byteLength input)) input

theorem below_eq {α : Type} {p : Parser α} {n : Nat} {input : List Char}
    (short : input.length < n) : below n p input = p input :=
  if_pos short

theorem below_takes {α : Type} {p : Parser α} {k : Nat} (h : p.Takes k) (n : Nat) :
    (below n p).Takes k :=
  Takes.restrict (fun _ run => h.success run) fun _ run => h.failure run

/-- What holds of a failure with a leaf, and of the runs of each production if it holds of those of
the parsers that it calls, holds of the runs of the nonterminals. -/
theorem Nonterminal.induction (Q : (n : Nonterminal) → List Char → Parsed n.Result → Prop)
    (blocked : ∀ n input,
      Q n input (.failure (.leaf (.refused "too long") (byteLength input)) input))
    (step : ∀ calls : Parsers, calls.Take → (∀ n input, Q n input (calls n input)) →
      ∀ n input, Q n input (n.production.parser calls input))
    (n : Nonterminal) (input : List Char) : Q n input (n.parser input) := by
  let calls : Parsers := fun m => below input.length m.parser
  have take : calls.Take := fun m => below_takes (Nonterminal.takes m) input.length
  -- Only the calls on shorter inputs are made, so the others may as well fail.
  have agree : n.parser input = n.production.parser calls input := by
    rw [n.parser_unfold]
    exact n.production.parser_congr n.guarded Nonterminal.takes take
      (fun _ _ shorter => (below_eq shorter).symm) (Nat.le_refl _)
  rw [agree]
  apply step calls take
  intro m rest
  by_cases shorter : rest.length < input.length
  · have eq : calls m rest = m.parser rest := below_eq shorter
    rw [eq]
    exact Nonterminal.induction Q blocked step m rest
  · have eq : calls m rest = .failure (.leaf (.refused "too long") (byteLength rest)) rest :=
      if_neg shorter
    rw [eq]
    exact blocked m rest
termination_by input.length

end ErrorML.Grammar
