import ErrorML.Proofs.Parsing.Summary

namespace ErrorML

open ErrorML.Parser ErrorML.Sequence

/-- Two results that tell the same: the same text is left, and either the values correspond or the
failures have the same summary. -/
inductive Parsed.Alike {α β : Type} (correspond : α → β → Prop) : Parsed α → Parsed β → Prop
  | success {v w rest} (values : correspond v w) :
      Alike correspond (.success v rest) (.success w rest)
  | failure {error other rest} (furthest : error.remainingBytes = other.remainingBytes)
      (wordings : error.expectations = other.expectations) :
      Alike correspond (.failure error rest) (.failure other rest)

theorem Parsed.Alike.of_leaves {α β : Type} {correspond : α → β → Prop} {error other : ParseError}
    (rest : List Char) (same : error.leaves = other.leaves) :
    Alike correspond (.failure error rest) (.failure other rest) :=
  .failure (ParseError.summary_congr same).1 (ParseError.summary_congr same).2

theorem ParseError.leavesOf_append (front back : List ParseError) :
    leavesOf (front ++ back) = leavesOf front ++ leavesOf back := by
  induction front with
  | nil => rfl
  | cons cause front ih => rw [List.cons_append, leavesOf, leavesOf, ih, List.append_assoc]

/-! ## Choices -/

section Choices

variable {α : Type} {ps qs : List (Parser α)}

theorem Parser.tryEach_append (input : List Char) (ps qs : List (Parser α)) :
    tryEach input (ps ++ qs) =
      match tryEach input ps with
      | .ok result => .ok result
      | .error errors =>
        match tryEach input qs with
        | .ok result => .ok result
        | .error others => .error (errors ++ others) := by
  induction ps with
  | nil =>
    simp only [List.nil_append, tryEach]
    cases tryEach input qs <;> rfl
  | cons p ps ih =>
    obtain ⟨value, rest, run⟩ | ⟨error, rest, run⟩ := (p input).success_or_failure
    · simp only [List.cons_append, tryEach, run, Parsed.success]
    · simp only [List.cons_append, tryEach, run, Parsed.failure, ih]
      cases tryEach input ps with
      | ok result => rfl
      | error errors => cases tryEach input qs <;> rfl

def TryAlike (ps qs : List (Parser α)) : Prop :=
  ∀ input, (∃ result, tryEach input ps = .ok result ∧ tryEach input qs = .ok result) ∨
    ∃ errors others, tryEach input ps = .error errors ∧ tryEach input qs = .error others ∧
      ParseError.leavesOf errors = ParseError.leavesOf others

theorem TryAlike.refl (ps : List (Parser α)) : TryAlike ps ps := by
  intro input
  cases tryEach input ps with
  | ok result => exact .inl ⟨result, rfl, rfl⟩
  | error errors => exact .inr ⟨errors, errors, rfl, rfl, rfl⟩

theorem TryAlike.append {ps' qs' : List (Parser α)} (front : TryAlike ps qs)
    (back : TryAlike ps' qs') : TryAlike (ps ++ ps') (qs ++ qs') := by
  intro input
  rw [tryEach_append, tryEach_append]
  obtain ⟨result, tried, same⟩ | ⟨errors, others, tried, same, leaves⟩ := front input
  · exact .inl ⟨result, by rw [tried], by rw [same]⟩
  · rw [tried, same]
    obtain ⟨result, tried, same⟩ | ⟨further, more, tried, same, leaves'⟩ := back input
    · exact .inl ⟨result, by rw [tried], by rw [same]⟩
    · refine .inr ⟨errors ++ further, others ++ more, by rw [tried], by rw [same], ?_⟩
      rw [ParseError.leavesOf_append, ParseError.leavesOf_append, leaves, leaves']

theorem TryAlike.group (h : TryAlike ps qs) : TryAlike [firstOf ps] qs := by
  intro input
  obtain ⟨⟨value, rest⟩, tried, same⟩ | ⟨errors, others, tried, same, leaves⟩ := h input
  · exact .inl ⟨(value, rest), by simp only [tryEach, firstOf, tried, Parsed.success], same⟩
  · refine .inr ⟨[.alternatives errors], others, ?_, same, ?_⟩
    · simp only [tryEach, firstOf, tried, Parsed.failure]
    · rw [ParseError.leavesOf, ParseError.leavesOf, ParseError.leaves_alternatives,
        List.append_nil, leaves]

theorem TryAlike.firstOf (h : TryAlike ps qs) (input : List Char) :
    Parsed.Alike (fun v w => v = w) (firstOf ps input) (firstOf qs input) := by
  unfold Parser.firstOf
  obtain ⟨⟨value, rest⟩, tried, same⟩ | ⟨errors, others, tried, same, leaves⟩ := h input
  · rw [tried, same]
    exact .success rfl
  · rw [tried, same]
    apply Parsed.Alike.of_leaves
    rw [ParseError.leaves_alternatives, ParseError.leaves_alternatives, leaves]

inductive Choice (α : Type) where
  | one (p : Parser α)
  | among (choices : List (Choice α))

namespace Choice

mutual

def parser : Choice α → Parser α
  | .one p => p
  | .among choices => Parser.firstOf (parsers choices)

def parsers : List (Choice α) → List (Parser α)
  | [] => []
  | choice :: choices => choice.parser :: parsers choices

end

mutual

def members : Choice α → List (Parser α)
  | .one p => [p]
  | .among choices => membersOf choices

def membersOf : List (Choice α) → List (Parser α)
  | [] => []
  | choice :: choices => choice.members ++ membersOf choices

end

mutual

theorem tryAlike : (choice : Choice α) → TryAlike [choice.parser] choice.members
  | .one p => by
    rw [parser, members]
    exact .refl [p]
  | .among choices => by
    rw [parser, members]
    exact (tryAlike_all choices).group

theorem tryAlike_all : (choices : List (Choice α)) →
    TryAlike (parsers choices) (membersOf choices)
  | [] => .refl []
  | choice :: choices => choice.tryAlike.append (tryAlike_all choices)

end

end Choice

end Choices

/-! ## Sequences -/

abbrev AnyParser := (α : Type) × Parser α

abbrev AnyValue := (α : Type) × α

def readEach : List AnyParser → List Char →
    Except (List (Expectation × Nat)) (List AnyValue × List Char)
  | [], input => .ok ([], input)
  | ⟨α, p⟩ :: ps, input =>
    match p input with
    | ⟨.error error, _⟩ => .error error.leaves
    | ⟨.ok value, middle⟩ =>
      match readEach ps middle with
      | .error leaves => .error leaves
      | .ok (values, rest) => .ok (⟨α, value⟩ :: values, rest)

theorem readEach_append (ps qs : List AnyParser) (input : List Char) :
    readEach (ps ++ qs) input =
      match readEach ps input with
      | .error leaves => .error leaves
      | .ok (values, middle) =>
        match readEach qs middle with
        | .error leaves => .error leaves
        | .ok (others, rest) => .ok (values ++ others, rest) := by
  induction ps generalizing input with
  | nil =>
    simp only [List.nil_append, readEach]
    rcases readEach qs input with leaves | ⟨values, rest⟩ <;> rfl
  | cons p ps ih =>
    obtain ⟨α, p⟩ := p
    obtain ⟨value, middle, run⟩ | ⟨error, rest, run⟩ := (p input).success_or_failure
    · simp only [List.cons_append, readEach, run, Parsed.success, ih]
      rcases readEach ps middle with leaves | ⟨values, rest⟩
      · rfl
      · dsimp only
        rcases readEach qs rest with leaves | ⟨others, last⟩ <;> rfl
    · simp only [List.cons_append, readEach, run, Parsed.failure]

/-- Parsers one after another, grouped to any depth. The values of a row are paired up from the
left, and a group has one value, that of the row inside. -/
inductive Row : Type → Type 1 where
  | start : Row Unit
  | next {α β : Type} (row : Row α) (p : Parser β) : Row (α × β)
  | nextGroup {α β : Type} (row : Row α) (inner : Row β) : Row (α × β)

namespace Row

def sequence : {α : Type} → Row α → {β : Type} → (α → β) → Sequence β
  | _, .start, _, f => Sequence.of (f ())
  | _, .next row p, _, f => (row.sequence fun a b => f (a, b)).next p
  | _, .nextGroup row inner, _, f =>
    (row.sequence fun a b => f (a, b)).next (inner.sequence fun b => b).parser

def parser {α : Type} (row : Row α) : Parser α := (row.sequence fun values => values).parser

def members : {α : Type} → Row α → List AnyParser
  | _, .start => []
  | _, .next row p => row.members ++ [⟨_, p⟩]
  | _, .nextGroup row inner => row.members ++ inner.members

def values : {α : Type} → Row α → α → List AnyValue
  | _, .start, _ => []
  | _, .next row _, (a, b) => row.values a ++ [⟨_, b⟩]
  | _, .nextGroup row inner, (a, b) => row.values a ++ inner.values b

end Row

/-! ### Members one after another -/

section Members

variable {α β γ : Type} {ps qs : List AnyParser}

def Parser.Follows (p : Parser α) (ps : List AnyParser) (values : α → List AnyValue) : Prop :=
  ∀ input, (∃ value rest, p input = .success value rest ∧
      readEach ps input = .ok (values value, rest)) ∨
    ∃ error rest, p input = .failure error rest ∧ readEach ps input = .error error.leaves

def Sequence.Follows (s : Sequence β) (f : α → β) (ps : List AnyParser)
    (values : α → List AnyValue) : Prop :=
  ∀ input, (∃ value rest, s.Runs input (f value) rest ∧
      readEach ps input = .ok (values value, rest)) ∨
    ∃ error, s.run input = .error error ∧ readEach ps input = .error error.leaves

theorem Parser.follows_one (p : Parser α) : p.Follows [⟨α, p⟩] fun value => [⟨α, value⟩] := by
  intro input
  obtain ⟨value, rest, run⟩ | ⟨error, rest, run⟩ := (p input).success_or_failure
  · exact .inl ⟨value, rest, run, by simp only [readEach, run, Parsed.success]⟩
  · exact .inr ⟨error, rest, run, by simp only [readEach, run, Parsed.failure]⟩

theorem Sequence.Follows.parser {s : Sequence α} {values : α → List AnyValue}
    (h : s.Follows (fun value => value) ps values) : s.parser.Follows ps values := by
  intro input
  obtain ⟨value, rest, runs, read⟩ | ⟨error, stops, read⟩ := h input
  · exact .inl ⟨value, rest, runs.parser, read⟩
  · exact .inr ⟨error, input, by rw [Sequence.parser, stops], read⟩

theorem Sequence.Follows.next {s : Sequence (β → γ)} {f : α → β → γ} {p : Parser β}
    {values : α → List AnyValue} {others : β → List AnyValue} (first : s.Follows f ps values)
    (second : p.Follows qs others) :
    (s.next p).Follows (fun v : α × β => f v.1 v.2) (ps ++ qs)
      fun v : α × β => values v.1 ++ others v.2 := by
  intro input
  rw [readEach_append]
  obtain ⟨a, middle, runs, read⟩ | ⟨error, stops, read⟩ := first input
  · rw [read]
    obtain ⟨b, rest, run, further⟩ | ⟨error, rest, run, further⟩ := second middle
    · exact .inl ⟨(a, b), rest, runs.next run, by simp only [further]⟩
    · refine .inr ⟨.element s.size error, ?_, by simp only [further, ParseError.leaves_element]⟩
      unfold Runs at runs
      simp only [run_next, runs, run, Parsed.failure]
  · exact .inr ⟨error, by rw [run_next, stops], by rw [read]⟩

theorem Row.follows {α β : Type} (row : Row α) (f : α → β) :
    (row.sequence f).Follows f row.members row.values := by
  induction row generalizing β with
  | start =>
    intro input
    exact .inl ⟨(), input, Runs.of (f ()) input, by rw [members, readEach, values]⟩
  | next row p ih =>
    exact (ih fun a b => f (a, b)).next p.follows_one
  | nextGroup row inner ih inside =>
    exact (ih fun a b => f (a, b)).next (inside fun b => b).parser

theorem Sequence.Follows.alike {s : Sequence α} {t : Sequence β} {values : α → List AnyValue}
    {others : β → List AnyValue} (h : s.Follows (fun v => v) ps values)
    (h' : t.Follows (fun w => w) ps others) (input : List Char) :
    Parsed.Alike (fun v w => values v = others w) (s.parser input) (t.parser input) := by
  obtain ⟨v, rest, runs, read⟩ | ⟨error, stops, read⟩ := h input
  · obtain ⟨w, left, runs', read'⟩ | ⟨other, stops', read'⟩ := h' input
    · rw [read', Except.ok.injEq, Prod.mk.injEq] at read
      obtain ⟨same, rfl⟩ := read
      rw [runs.parser, runs'.parser]
      exact .success same.symm
    · rw [read'] at read
      cases read
  · obtain ⟨w, left, runs', read'⟩ | ⟨other, stops', read'⟩ := h' input
    · rw [read'] at read
      cases read
    · rw [read', Except.error.injEq] at read
      rw [Sequence.parser, Sequence.parser, stops, stops']
      exact .of_leaves input read.symm

end Members

/-! ### The sequence without groups -/

namespace Row

def paired (α : Type) : List AnyParser → Type
  | [] => α
  | p :: ps => paired (α × p.1) ps

def extend : {α : Type} → Row α → (ps : List AnyParser) → Row (paired α ps)
  | _, row, [] => row
  | _, row, p :: ps => (row.next p.2).extend ps

def flat (ps : List AnyParser) : Row (paired Unit ps) := start.extend ps

theorem members_extend : {α : Type} → (row : Row α) → (ps : List AnyParser) →
    (row.extend ps).members = row.members ++ ps
  | _, row, [] => (List.append_nil row.members).symm
  | _, row, p :: ps => by
    have further := members_extend (row.next p.2) ps
    rw [members, List.append_assoc] at further
    exact further

theorem members_flat (ps : List AnyParser) : (flat ps).members = ps :=
  members_extend start ps

example {α β γ : Type} (p : Parser α) (q : Parser β) (r : Parser γ) :
    (flat [⟨α, p⟩, ⟨β, q⟩, ⟨γ, r⟩]).parser =
      ((Sequence.of fun a b c => ((((), a), b), c)).next p |>.next q |>.next r).parser := rfl

end Row

/-- A choice among choices does what one choice among all their members does, and a sequence of
sequences what one sequence of all their members does, to any nesting and whatever a member leaves
when it fails. On success the same text is left, and the value is the same, or the values of all
members are, in order. On failure the whole input is left, and the summary is the same. -/
theorem grouping_alike :
    (∀ {α : Type} (choices : List (Choice α)) (input : List Char),
      Parsed.Alike (fun v w => v = w) ((Choice.among choices).parser input)
        (firstOf (Choice.among choices).members input)) ∧
      ∀ {α : Type} (row : Row α) (input : List Char),
        Parsed.Alike (fun v w => row.values v = (Row.flat row.members).values w)
          (row.parser input) ((Row.flat row.members).parser input) := by
  constructor
  · intro α choices input
    rw [Choice.parser, Choice.members]
    exact (Choice.tryAlike_all choices).firstOf input
  · intro α row input
    have nested := row.follows fun values => values
    have flat := (Row.flat row.members).follows fun values => values
    rw [Row.members_flat] at flat
    exact nested.alike flat input

end ErrorML
