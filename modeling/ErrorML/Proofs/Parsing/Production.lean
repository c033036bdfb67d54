import ErrorML.Proofs.Parsing.Progress

/-!
# The grammar as data

The parsers of the grammar, written down as productions: trees whose leaves are tokens, and calls of
the three parsers that are recursive. What holds of the parser of every production then needs one
induction over productions, with a case for each combinator.
-/

namespace ErrorML.Grammar

open ErrorML.Parser ErrorML.Sequence

/-! ## Productions -/

inductive Terminal : Type → Type where
  | symbol (text : String) (nonempty : text ≠ "") : Terminal (List Char)
  | keyword (word : String) (nonempty : word ≠ "") : Terminal Unit
  | identifier : Terminal String
  | binder : Terminal String
  | boolean : Terminal Bool
  | integer (signed : Bool) : Terminal Int64
  | index : Terminal Nat

def Terminal.parser : {α : Type} → Terminal α → Parser α
  | _, .symbol text _ => Grammar.symbol text
  | _, .keyword word _ => Grammar.keyword word
  | _, .identifier => Grammar.identifier
  | _, .binder => Grammar.binder
  | _, .boolean => Grammar.boolean
  | _, .integer signed => Grammar.integer signed
  | _, .index => Grammar.index

inductive Nonterminal where
  | expression
  | value
  | environment
deriving DecidableEq

abbrev Nonterminal.Result : Nonterminal → Type
  | .expression => Expr
  | .value => Value
  | .environment => Env

mutual

inductive Production : Type → Type 1 where
  | terminal {α : Type} (t : Terminal α) : Production α
  | call (n : Nonterminal) : Production n.Result
  | map {α β : Type} (f : α → β) (inner : Production α) : Production β
  | optional {α : Type} (inner : Production α) : Production (Option α)
  | many {α : Type} (inner : Production α) : Production (List α)
  | firstOf {α : Type} (choice : Alternatives α) : Production α
  | sequence {α : Type} (elements : Elements α) : Production α

inductive Alternatives : Type → Type 1 where
  | last {α : Type} (only : Production α) : Alternatives α
  | or {α : Type} (first : Production α) (others : Alternatives α) : Alternatives α

inductive Elements : Type → Type 1 where
  | of {α : Type} (value : α) : Elements α
  | next {α β : Type} (elements : Elements (α → β)) (last : Production α) : Elements β

end

abbrev Parsers := (n : Nonterminal) → Parser n.Result

def Parsers.of (expression : Parser Expr) (value : Parser Value) (environment : Parser Env) :
    Parsers
  | .expression => expression
  | .value => value
  | .environment => environment

mutual

def Production.parser (calls : Parsers) : {α : Type} → Production α → Parser α
  | _, .terminal t => t.parser
  | _, .call n => calls n
  | _, .map f inner => (inner.parser calls).map f
  | _, .optional inner => (inner.parser calls).optional
  | _, .many inner => Parser.many (inner.parser calls)
  | _, .firstOf choice => Parser.firstOf (choice.parsers calls)
  | _, .sequence elements => (elements.sequence calls).parser

def Alternatives.parsers (calls : Parsers) : {α : Type} → Alternatives α → List (Parser α)
  | _, .last only => [only.parser calls]
  | _, .or first others => first.parser calls :: others.parsers calls

def Elements.sequence (calls : Parsers) : {α : Type} → Elements α → Sequence α
  | _, .of value => Sequence.of value
  | _, .next elements last => (elements.sequence calls).next (last.parser calls)

end

def Elements.size : {α : Type} → Elements α → Nat
  | _, .of _ => 0
  | _, .next elements _ => elements.size + 1

theorem Elements.sequence_size (calls : Parsers) : {α : Type} → (elements : Elements α) →
    (elements.sequence calls).size = elements.size
  | _, .of _ => rfl
  | _, .next elements _ => congrArg (· + 1) (elements.sequence_size calls)

/-! ## The grammar -/

namespace Production

def symbol (text : String) (nonempty : text ≠ "" := by decide) : Production (List Char) :=
  .terminal (.symbol text nonempty)

def keyword (word : String) (nonempty : word ≠ "" := by decide) : Production Unit :=
  .terminal (.keyword word nonempty)

def parenthesized : Production Expr :=
  .sequence <| (Elements.of fun _ e _ => e)
    |>.next (symbol "(")
    |>.next (.call .expression)
    |>.next (symbol ")")

def operand (signed : Bool) : Production Expr :=
  .firstOf <|
    .or parenthesized <|
    .or (.map .int (.terminal (.integer signed))) <|
    .or (.map .bool (.terminal .boolean)) <|
    .or (.map (fun _ => .error) (keyword "error")) <|
    .or (.map .index (.terminal .index)) <|
    .last (.map .var (.terminal .identifier))

def application : Production Expr :=
  .sequence <| (Elements.of fun (head : Expr) (arguments : List Expr) =>
      arguments.foldl Expr.app head)
    |>.next (operand true)
    |>.next (.many (operand false))

def leftChain (operand : Production Expr) (operator : Production Operator) : Production Expr :=
  .sequence <| (Elements.of fun (first : Expr) (rest : List (Operator × Expr)) =>
      rest.foldl (fun left (op, right) => .binary op left right) first)
    |>.next operand
    |>.next (.many (.sequence ((Elements.of Prod.mk).next operator |>.next operand)))

def product : Production Expr :=
  leftChain application (.map (fun _ => .times) (symbol "*"))

def sum : Production Expr :=
  leftChain product <| .firstOf <|
    .or (.map (fun _ => .plus) (symbol "+")) (.last (.map (fun _ => .minus) (symbol "-")))

def comparison : Production Expr :=
  leftChain sum (.map (fun _ => .less) (symbol "<"))

def letIn : Production Expr :=
  .sequence <| (Elements.of fun _ name _ bound _ body => Expr.letIn name bound body)
    |>.next (keyword "let")
    |>.next (.terminal .binder)
    |>.next (symbol "=")
    |>.next (.call .expression)
    |>.next (keyword "in")
    |>.next (.call .expression)

def letRecIn : Production Expr :=
  .sequence <| (Elements.of fun _ _ name _ bound _ body => Expr.letRec name bound body)
    |>.next (keyword "let")
    |>.next (keyword "rec")
    |>.next (.terminal .binder)
    |>.next (symbol "=")
    |>.next (.call .expression)
    |>.next (keyword "in")
    |>.next (.call .expression)

def functionLiteral : Production Function :=
  .sequence <| (Elements.of fun _ param _ body => Function.mk param body)
    |>.next (keyword "fun")
    |>.next (.terminal .binder)
    |>.next (symbol "->")
    |>.next (.call .expression)

def conditional : Production Expr :=
  .sequence <| (Elements.of fun _ condition _ thenBranch _ elseBranch =>
      Expr.ite condition thenBranch elseBranch)
    |>.next (keyword "if")
    |>.next (.call .expression)
    |>.next (keyword "then")
    |>.next (.call .expression)
    |>.next (keyword "else")
    |>.next (.call .expression)

def expression : Production Expr :=
  .firstOf <|
    .or letIn <|
    .or letRecIn <|
    .or (.map Function.expr functionLiteral) <|
    .or conditional <|
    .last comparison

def binding : Production (String × Value) :=
  .sequence <| (Elements.of fun name _ value => (name, value))
    |>.next (.terminal .identifier)
    |>.next (symbol "=")
    |>.next (.call .value)

def bindingList : Production (List (String × Value)) :=
  .sequence <| (Elements.of List.cons)
    |>.next binding
    |>.next (.many (.sequence ((Elements.of fun _ b => b).next (symbol ",") |>.next binding)))

def environment : Production Env :=
  .map (fun found => Env.ofList (found.getD [])) (.optional bindingList)

def captured : Production Env :=
  .sequence <| (Elements.of fun _ env _ => env)
    |>.next (symbol "(")
    |>.next (.call .environment)
    |>.next (symbol ")")

def closure : Production Value :=
  .sequence <| (Elements.of fun env _ function _ => Value.closure env function)
    |>.next captured
    |>.next (symbol "[")
    |>.next functionLiteral
    |>.next (symbol "]")

def recClosure : Production Value :=
  .sequence <| (Elements.of fun env _ _ name _ function _ => Value.recClosure env name function)
    |>.next captured
    |>.next (symbol "[")
    |>.next (keyword "rec")
    |>.next (.terminal .binder)
    |>.next (symbol "=")
    |>.next functionLiteral
    |>.next (symbol "]")

def value : Production Value :=
  .firstOf <|
    .or (.map .int (.terminal (.integer true))) <|
    .or (.map .bool (.terminal .boolean)) <|
    .or (.map (fun _ => .error) (keyword "error")) <|
    .or closure <|
    .last recClosure

def judgment : Production Judgment :=
  .firstOf <|
    .or (.sequence <| (Elements.of fun env _ expr _ value => Judgment.mk (some env) expr value)
      |>.next (.call .environment)
      |>.next (symbol "|-")
      |>.next (.call .expression)
      |>.next (keyword "evalto")
      |>.next (.call .value)) <|
    .last (.sequence <| (Elements.of fun expr _ value => Judgment.mk none expr value)
      |>.next (.call .expression)
      |>.next (keyword "evalto")
      |>.next (.call .value))

def request : Production Request :=
  .firstOf <|
    .or (.sequence <| (Elements.of fun env _ expr => Request.mk (some env) expr)
      |>.next (.call .environment)
      |>.next (symbol "|-")
      |>.next (.call .expression)) <|
    .last (.map (fun expr => Request.mk none expr) (.call .expression))

section Parsers

variable (p : Parser Expr) (q : Parser Value) (r : Parser Env)

theorem parser_expression : expression.parser (.of p q r) = expressionForms p := rfl

theorem parser_environment : environment.parser (.of p q r) = bindings q := rfl

theorem parser_value :
    value.parser (.of Grammar.expression q (bindings q)) = valueForms q := by
  unfold valueForms Grammar.closure Grammar.recClosure Grammar.captured
  rfl

end Parsers

end Production

/-! ## Properties of productions -/

/-- Properties of parsers and sequences that the tokens have and that the combinators keep. -/
structure Compositional (P : (α : Type) → Parser α → Prop) (S : (α : Type) → Sequence α → Prop) :
    Prop where
  terminal {α : Type} (t : Terminal α) : P α t.parser
  map {α β : Type} {p : Parser α} (f : α → β) : P α p → P β (p.map f)
  optional {α : Type} {p : Parser α} : P α p → P (Option α) p.optional
  many {α : Type} {p : Parser α} : P α p → P (List α) (Parser.many p)
  firstOf {α : Type} {ps : List (Parser α)} (nonempty : ps ≠ []) :
    (∀ p ∈ ps, P α p) → P α (Parser.firstOf ps)
  of {α : Type} (value : α) : S α (Sequence.of value)
  next {α β : Type} {s : Sequence (α → β)} {p : Parser α} :
    S (α → β) s → P α p → S β (s.next p)
  parser {α : Type} {s : Sequence α} : S α s → P α s.parser

theorem Alternatives.parsers_ne_nil (calls : Parsers) {α : Type} (choice : Alternatives α) :
    choice.parsers calls ≠ [] := by
  cases choice with
  | last only => exact List.cons_ne_nil _ _
  | or first others => exact List.cons_ne_nil _ _

section Compositional

variable {P : (α : Type) → Parser α → Prop} {S : (α : Type) → Sequence α → Prop} {calls : Parsers}

mutual

theorem Production.holds (h : Compositional P S) (called : ∀ n, P n.Result (calls n)) :
    {α : Type} → (p : Production α) → P α (p.parser calls)
  | _, .terminal t => h.terminal t
  | _, .call n => called n
  | _, .map f inner => h.map f (inner.holds h called)
  | _, .optional inner => h.optional (inner.holds h called)
  | _, .many inner => h.many (inner.holds h called)
  | _, .firstOf choice => h.firstOf (choice.parsers_ne_nil calls) (choice.holds h called)
  | _, .sequence elements => h.parser (elements.holds h called)

theorem Alternatives.holds (h : Compositional P S) (called : ∀ n, P n.Result (calls n)) :
    {α : Type} → (choice : Alternatives α) → ∀ p ∈ choice.parsers calls, P α p
  | _, .last only => List.forall_mem_singleton.2 (only.holds h called)
  | _, .or first others =>
    List.forall_mem_cons.2 ⟨first.holds h called, others.holds h called⟩

theorem Elements.holds (h : Compositional P S) (called : ∀ n, P n.Result (calls n)) :
    {α : Type} → (elements : Elements α) → S α (elements.sequence calls)
  | _, .of value => h.of value
  | _, .next elements last => h.next (elements.holds h called) (last.holds h called)

end

end Compositional

/-! ## Progress -/

theorem Terminal.takes {α : Type} (t : Terminal α) : t.parser.Takes 1 := by
  cases t with
  | symbol text nonempty => exact symbol_takes nonempty
  | keyword word nonempty => exact keyword_takes nonempty
  | identifier => exact identifier_takes
  | binder => exact binder_takes
  | boolean => exact boolean_takes
  | integer signed => exact integer_takes signed
  | index => exact index_takes.weaken (by omega)

def Nonterminal.least : Nonterminal → Nat
  | .expression | .value => 1
  | .environment => 0

mutual

def Production.least : {α : Type} → Production α → Nat
  | _, .terminal _ => 1
  | _, .call n => n.least
  | _, .map _ inner => inner.least
  | _, .optional _ | _, .many _ => 0
  | _, .firstOf choice => choice.least
  | _, .sequence elements => elements.least

def Alternatives.least : {α : Type} → Alternatives α → Nat
  | _, .last only => only.least
  | _, .or first others => min first.least others.least

def Elements.least : {α : Type} → Elements α → Nat
  | _, .of _ => 0
  | _, .next elements last => elements.least + last.least

end

def Parsers.Take (calls : Parsers) : Prop := ∀ n, (calls n).Takes n.least

mutual

theorem Production.takes {calls : Parsers} (h : calls.Take) : {α : Type} → (p : Production α) →
    (p.parser calls).Takes p.least
  | _, .terminal t => t.takes
  | _, .call n => h n
  | _, .map f inner => (inner.takes h).map f
  | _, .optional inner => (inner.takes h).optional
  | _, .many inner => (inner.takes h).many
  | _, .firstOf choice => firstOf_takes (choice.takes h)
  | _, .sequence elements => (elements.takes h).parser

theorem Alternatives.takes {calls : Parsers} (h : calls.Take) : {α : Type} →
    (choice : Alternatives α) → ∀ p ∈ choice.parsers calls, p.Takes choice.least
  | _, .last only => List.forall_mem_singleton.2 (only.takes h)
  | _, .or first others => by
    rintro p (_ | ⟨_, member⟩)
    · exact (first.takes h).weaken (Nat.min_le_left _ _)
    · exact (others.takes h p member).weaken (Nat.min_le_right _ _)

theorem Elements.takes {calls : Parsers} (h : calls.Take) : {α : Type} → (elements : Elements α) →
    (elements.sequence calls).Takes elements.least
  | _, .of value => of_takes value
  | _, .next elements last => (elements.takes h).next (last.takes h)

end

end ErrorML.Grammar
