import ErrorML.Proofs.Parsing.Production

namespace ErrorML.Grammar

open ErrorML.Parser

abbrev Answers := (n : Nonterminal) → List Char → Option (Parsed n.Result)

def collectAnswered {α : Type} (run : List Char → Option (Parsed α)) (input : List Char) :
    Option (List α × List Char) := do
  match ← run input with
  | ⟨.ok value, rest⟩ =>
    if rest.length < input.length then
      let (values, left) ← collectAnswered run rest
      some (value :: values, left)
    else some ([], input)
  | ⟨.error _, _⟩ => some ([], input)
termination_by input.length

mutual

/-- Runs a production on `answers` to its calls. There is no result if one that it asks for is
missing. -/
def Production.run (answers : Answers) : {α : Type} → Production α → List Char → Option (Parsed α)
  | _, .terminal t, input => some (t.parser input)
  | _, .call n, input => answers n input
  | _, .map f inner, input => do
    match ← inner.run answers input with
    | ⟨.ok value, rest⟩ => some (.success (f value) rest)
    | ⟨.error error, rest⟩ => some (.failure error rest)
  | _, .optional inner, input => do
    match ← inner.run answers input with
    | ⟨.ok value, rest⟩ => some (.success (some value) rest)
    | ⟨.error _, _⟩ => some (.success none input)
  | _, .many inner, input => do
    let (values, rest) ← collectAnswered (inner.run answers) input
    some (.success values rest)
  | _, .firstOf choice, input => do
    match ← choice.run answers input with
    | .ok (value, rest) => some (.success value rest)
    | .error errors => some (.failure (.alternatives errors) input)
  | _, .sequence elements, input => do
    match ← elements.run answers input with
    | .ok (value, rest) => some (.success value rest)
    | .error error => some (.failure error input)

def Alternatives.run (answers : Answers) : {α : Type} → Alternatives α → List Char →
    Option (Except (List ParseError) (α × List Char))
  | _, .last only, input => do
    match ← only.run answers input with
    | ⟨.ok value, rest⟩ => some (.ok (value, rest))
    | ⟨.error error, _⟩ => some (.error [error])
  | _, .or first others, input => do
    match ← first.run answers input with
    | ⟨.ok value, rest⟩ => some (.ok (value, rest))
    | ⟨.error error, _⟩ =>
      match ← others.run answers input with
      | .ok result => some (.ok result)
      | .error errors => some (.error (error :: errors))

def Elements.run (answers : Answers) : {α : Type} → Elements α → List Char →
    Option (Except ParseError (α × List Char))
  | _, .of value, input => some (.ok (value, input))
  | _, .next elements last, input => do
    match ← elements.run answers input with
    | .error error => some (.error error)
    | .ok (f, middle) =>
      match ← last.run answers middle with
      | ⟨.ok value, rest⟩ => some (.ok (f value, rest))
      | ⟨.error error, _⟩ => some (.error (.element elements.size error))

end

mutual

/-- A call is made only behind a token, if `taken` characters have been taken before. -/
def Production.guarded (taken : Nat) : {α : Type} → Production α → Bool
  | _, .terminal _ => true
  | _, .call _ => 0 < taken
  | _, .map _ inner | _, .optional inner | _, .many inner => inner.guarded taken
  | _, .firstOf choice => choice.guarded taken
  | _, .sequence elements => elements.guarded taken

def Alternatives.guarded (taken : Nat) : {α : Type} → Alternatives α → Bool
  | _, .last only => only.guarded taken
  | _, .or first others => first.guarded taken && others.guarded taken

def Elements.guarded (taken : Nat) : {α : Type} → Elements α → Bool
  | _, .of _ => true
  | _, .next elements last =>
    elements.guarded taken && last.guarded (taken + elements.least)

end

def Answers.Agree (answers : Answers) (calls : Parsers) (outer : List Char) (bound : Nat) : Prop :=
  ∀ n rest, rest <:+ outer → rest.length < bound → answers n rest = some (calls n rest)

variable {calls : Parsers} {answers : Answers} {outer : List Char} {bound : Nat}

theorem collectAnswered_eq {α : Type} {run : List Char → Option (Parsed α)} {p : Parser α} {k : Nat}
    (takes : p.Takes k) {input : List Char}
    (h : ∀ rest, rest <:+ input → run rest = some (p rest)) :
    collectAnswered run input = some (collect p input) := by
  rw [collectAnswered, collect_eq, h input (List.suffix_refl input)]
  obtain ⟨value, rest, result⟩ | ⟨error, rest, result⟩ := (p input).success_or_failure
  · simp only [result, Parsed.success, Option.bind_eq_bind, Option.bind_some]
    by_cases shorter : rest.length < input.length
    · have front := (takes.success result).1
      have further := collectAnswered_eq takes fun left back => h left (back.trans front)
      simp only [if_pos shorter, further, Option.bind_some]
    · simp only [if_neg shorter]
  · simp only [result, Parsed.failure, Option.bind_eq_bind, Option.bind_some]
termination_by input.length

mutual

theorem Production.run_eq (take : calls.Take) (agree : answers.Agree calls outer bound) :
    {α : Type} → (p : Production α) → ∀ {taken input}, p.guarded taken → input <:+ outer →
      input.length + taken ≤ bound → p.run answers input = some (p.parser calls input)
  | _, .terminal t, taken, input, _, _, _ => by
    rw [Production.run, Production.parser]
  | _, .call n, taken, input, guarded, suffix, le => by
    have positive : 0 < taken := by simpa [Production.guarded] using guarded
    rw [Production.run, Production.parser, agree n input suffix (by omega)]
  | _, .map f inner, taken, input, guarded, suffix, le => by
    rw [Production.guarded] at guarded
    rw [Production.run, Production.parser, inner.run_eq take agree guarded suffix le]
    unfold Parser.map
    split <;> simp_all
  | _, .optional inner, taken, input, guarded, suffix, le => by
    rw [Production.guarded] at guarded
    rw [Production.run, Production.parser, inner.run_eq take agree guarded suffix le]
    unfold Parser.optional
    split <;> simp_all
  | _, .many inner, taken, input, guarded, suffix, le => by
    rw [Production.guarded] at guarded
    have rounds : ∀ rest, rest <:+ input →
        inner.run answers rest = some (inner.parser calls rest) := by
      intro rest back
      have shorter := back.length_le
      exact inner.run_eq take agree guarded (back.trans suffix) (by omega)
    rw [Production.run, Production.parser, collectAnswered_eq (inner.takes take) rounds]
    rfl
  | _, .firstOf choice, taken, input, guarded, suffix, le => by
    rw [Production.guarded] at guarded
    rw [Production.run, Production.parser, choice.run_eq take agree guarded suffix le]
    unfold Parser.firstOf
    split <;> simp_all
  | _, .sequence elements, taken, input, guarded, suffix, le => by
    rw [Production.guarded] at guarded
    rw [Production.run, Production.parser, elements.run_eq take agree guarded suffix le]
    unfold Sequence.parser
    split <;> simp_all

theorem Alternatives.run_eq (take : calls.Take) (agree : answers.Agree calls outer bound) :
    {α : Type} → (choice : Alternatives α) → ∀ {taken input}, choice.guarded taken →
      input <:+ outer → input.length + taken ≤ bound →
      choice.run answers input = some (tryEach input (choice.parsers calls))
  | _, .last only, taken, input, guarded, suffix, le => by
    rw [Alternatives.guarded] at guarded
    rw [Alternatives.run, Alternatives.parsers, tryEach, only.run_eq take agree guarded suffix le]
    obtain ⟨value, rest, result⟩ | ⟨error, rest, result⟩ :=
      (only.parser calls input).success_or_failure
    · simp [result, Parsed.success]
    · simp [result, Parsed.failure, tryEach]
  | _, .or first others, taken, input, guarded, suffix, le => by
    rw [Alternatives.guarded, Bool.and_eq_true] at guarded
    rw [Alternatives.run, Alternatives.parsers, tryEach,
      first.run_eq take agree guarded.1 suffix le, others.run_eq take agree guarded.2 suffix le]
    obtain ⟨value, rest, result⟩ | ⟨error, rest, result⟩ :=
      (first.parser calls input).success_or_failure
    · simp [result, Parsed.success]
    · simp only [result, Parsed.failure, Option.bind_eq_bind, Option.bind_some]
      split <;> simp_all

theorem Elements.run_eq (take : calls.Take) (agree : answers.Agree calls outer bound) :
    {α : Type} → (elements : Elements α) → ∀ {taken input}, elements.guarded taken →
      input <:+ outer → input.length + taken ≤ bound →
      elements.run answers input = some ((elements.sequence calls).run input)
  | _, .of value, taken, input, _, _, _ => by
    rw [Elements.run, Elements.sequence, Sequence.run_of]
  | _, .next elements last, taken, input, guarded, suffix, le => by
    rw [Elements.guarded, Bool.and_eq_true] at guarded
    rw [Elements.run, Elements.sequence, Sequence.run_next,
      elements.run_eq take agree guarded.1 suffix le]
    cases before : (elements.sequence calls).run input with
    | error error => rfl
    | ok result =>
      obtain ⟨f, middle⟩ := result
      -- What the elements before have taken guards the calls of this one.
      obtain ⟨back, count⟩ := elements.takes take before
      simp only [Option.bind_eq_bind, Option.bind_some, elements.sequence_size,
        last.run_eq take agree guarded.2 (back.trans suffix) (by omega)]
      split <;> simp_all

end

theorem Production.parser_congr {α : Type} {p : Production α} {others : Parsers} {taken : Nat}
    {input : List Char} (guarded : p.guarded taken) (take : calls.Take) (also : others.Take)
    (same : ∀ n rest, rest.length < bound → calls n rest = others n rest)
    (le : input.length + taken ≤ bound) : p.parser calls input = p.parser others input := by
  let answers : Answers := fun n rest => if rest.length < bound then some (calls n rest) else none
  have first : answers.Agree calls input bound := fun n rest _ shorter => if_pos shorter
  have second : answers.Agree others input bound := by
    intro n rest suffix shorter
    rw [first n rest suffix shorter, same n rest shorter]
  have suffix := List.suffix_refl input
  exact Option.some_inj.1 <|
    (p.run_eq take first guarded suffix le).symm.trans (p.run_eq also second guarded suffix le)

end ErrorML.Grammar
