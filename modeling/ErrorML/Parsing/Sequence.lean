import ErrorML.Parsing.Parser

namespace ErrorML

structure Sequence (α : Type) where
  size : Nat
  run : List Char → Except ParseError (α × List Char)

namespace Sequence

variable {α β : Type}

def of (value : α) : Sequence α := ⟨0, fun input => .ok (value, input)⟩

def next (s : Sequence (α → β)) (p : Parser α) : Sequence β where
  size := s.size + 1
  run input :=
    match s.run input with
    | .error error => .error error
    | .ok (f, middle) =>
      match p middle with
      | ⟨.ok value, rest⟩ => .ok (f value, rest)
      | ⟨.error error, _⟩ => .error (.element s.size error)

def parser (s : Sequence α) : Parser α := fun input =>
  match s.run input with
  | .ok (value, rest) => .success value rest
  | .error error => .failure error input

def mapValue (f : α → β) (s : Sequence α) : Sequence β where
  size := s.size
  run input :=
    match s.run input with
    | .error error => .error error
    | .ok (value, rest) => .ok (f value, rest)

def nextAll (s : Sequence (List α)) : List (Parser α) → Sequence (List α)
  | [] => s
  | p :: ps => nextAll ((s.mapValue fun values value => values ++ [value]).next p) ps

def ofList (ps : List (Parser α)) : Sequence (List α) :=
  nextAll (of []) ps

theorem run_of (value : α) (input : List Char) : (of value).run input = .ok (value, input) := rfl

theorem run_next (s : Sequence (α → β)) (p : Parser α) (input : List Char) :
    (s.next p).run input =
      match s.run input with
      | .error error => .error error
      | .ok (f, middle) =>
        match p middle with
        | ⟨.ok value, rest⟩ => .ok (f value, rest)
        | ⟨.error error, _⟩ => .error (.element s.size error) := rfl

def Runs (s : Sequence α) (input : List Char) (value : α) (rest : List Char) : Prop :=
  s.run input = .ok (value, rest)

def Stops (s : Sequence α) (input : List Char) : Prop :=
  ∃ error, s.run input = .error error

theorem Runs.of (value : α) (input : List Char) : (of value).Runs input value input := rfl

theorem Runs.next {s : Sequence (α → β)} {p : Parser α} {f : α → β} {value : α}
    {input middle rest : List Char} (first : s.Runs input f middle)
    (second : p middle = .success value rest) : (s.next p).Runs input (f value) rest := by
  unfold Runs at first ⊢
  rw [run_next, first]
  simp only [second, Parsed.success]

theorem Runs.parser {s : Sequence α} {input rest : List Char} {value : α}
    (h : s.Runs input value rest) : s.parser input = .success value rest := by
  unfold Runs at h
  simp [Sequence.parser, h]

theorem Runs.stops {s : Sequence (α → β)} {p : Parser α} {f : α → β} {input middle : List Char}
    (first : s.Runs input f middle) (failed : p.Fails middle) : (s.next p).Stops input := by
  obtain ⟨error, rest, failed⟩ := failed
  unfold Runs at first
  refine ⟨.element s.size error, ?_⟩
  rw [run_next, first]
  simp only [failed, Parsed.failure]

theorem Stops.next {s : Sequence (α → β)} {input : List Char} (h : s.Stops input) (p : Parser α) :
    (s.next p).Stops input := by
  obtain ⟨error, h⟩ := h
  exact ⟨error, by rw [run_next, h]⟩

theorem Stops.parser {s : Sequence α} {input : List Char} (h : s.Stops input) :
    s.parser.Fails input := by
  obtain ⟨error, h⟩ := h
  exact ⟨error, input, by simp [Sequence.parser, h]⟩

end Sequence

namespace Parser

variable {α β γ : Type}

def skipThen (first : Parser α) (second : Parser β) : Parser β :=
  ((Sequence.of fun _ value => value).next first |>.next second).parser

def thenSkip (first : Parser α) (second : Parser β) : Parser α :=
  ((Sequence.of fun value _ => value).next first |>.next second).parser

def between (opening : Parser α) (inner : Parser β) (closing : Parser γ) : Parser β :=
  ((Sequence.of fun _ value _ => value).next opening |>.next inner |>.next closing).parser

end Parser

end ErrorML
