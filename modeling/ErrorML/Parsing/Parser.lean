import ErrorML.Parsing.Failure
import ErrorML.Text.Blank
import ErrorML.Text.Position

/-!
# Parsers

A parser takes the characters at hand to an outcome and to the characters that are left. A parser
that fails gives back all of its input, so that another one may be tried in its place; where it
failed is told by the byte counts in the failure.
-/

namespace ErrorML

structure Parsed (α : Type) where
  outcome : Except ParseError α
  remaining : List Char

abbrev Parser (α : Type) := List Char → Parsed α

namespace Parsed

variable {α : Type}

def success (value : α) (remaining : List Char) : Parsed α := ⟨.ok value, remaining⟩

def failure (error : ParseError) (remaining : List Char) : Parsed α := ⟨.error error, remaining⟩

theorem success_or_failure (result : Parsed α) :
    (∃ value rest, result = success value rest) ∨ ∃ error rest, result = failure error rest := by
  obtain ⟨outcome, rest⟩ := result
  cases outcome with
  | ok value => exact .inl ⟨value, rest, rfl⟩
  | error error => exact .inr ⟨error, rest, rfl⟩

end Parsed

namespace Parser

variable {α β ε : Type}

/-! ## Characters -/

def dropText? : List Char → List Char → Option (List Char)
  | [], input => some input
  | _ :: _, [] => none
  | t :: text, c :: input => if t = c then dropText? text input else none

def literal (text : String) : Parser (List Char) := fun input =>
  match dropText? text.toList input with
  | some rest => .success text.toList rest
  | none => .failure (.leaf (.literal text) (byteLength input)) input

def takeWhile (pred : Char → Bool) : Parser (List Char) := fun input =>
  .success (input.takeWhile pred) (input.dropWhile pred)

def scan (pred : Char → Bool) (max : Nat) (count : Nat) (taken : List Char) :
    List Char → Nat × List Char × List Char
  | [] => (count, taken.reverse, [])
  | c :: input =>
    if count = max ∨ pred c = false then (count, taken.reverse, c :: input)
    else scan pred max (count + 1) (c :: taken) input

def takeBetween (min max : Nat) (pred : Char → Bool) : Parser (List Char) := fun input =>
  match scan pred max 0 [] input with
  | (found, taken, rest) =>
    if found < min then .failure (.leaf (.atLeast min found) (byteLength input)) input
    else .success taken rest

def blanks : Parser (List Char) := takeWhile isBlank

def someBlanks : Parser (List Char) := takeBetween 1 maxWord isBlank

/-! ## Values -/

def map (f : α → β) (p : Parser α) : Parser β := fun input =>
  match p input with
  | ⟨.ok value, rest⟩ => .success (f value) rest
  | ⟨.error error, rest⟩ => .failure error rest

/-- Applies a function that may refuse the value. A refusal gives the input back, and counts as a
failure at its start. -/
def mapOrRefuse (f : α → Except String β) (p : Parser α) : Parser β := fun input =>
  match p input with
  | ⟨.ok value, rest⟩ =>
    match f value with
    | .ok result => .success result rest
    | .error reason => .failure (.leaf (.refused reason) (byteLength input)) input
  | ⟨.error error, rest⟩ => .failure error rest

/-! ## Choice and repetition -/

def tryEach (input : List Char) : List (Parser α) → Except (List ParseError) (α × List Char)
  | [] => .error []
  | p :: ps =>
    match p input with
    | ⟨.ok value, rest⟩ => .ok (value, rest)
    | ⟨.error error, _⟩ =>
      match tryEach input ps with
      | .ok result => .ok result
      | .error errors => .error (error :: errors)

def firstOf (ps : List (Parser α)) : Parser α := fun input =>
  match tryEach input ps with
  | .ok (value, rest) => .success value rest
  | .error errors => .failure (.alternatives errors) input

def optional (p : Parser α) : Parser (Option α) := fun input =>
  match p input with
  | ⟨.ok value, rest⟩ => .success (some value) rest
  | ⟨.error _, _⟩ => .success none input

/-- The values of a parser run again and again, until it fails or takes nothing; a value for which
nothing was taken is dropped. -/
def collect (p : Parser α) (input : List Char) : List α × List Char :=
  match p input with
  | ⟨.ok value, rest⟩ =>
    if rest.length < input.length then
      let (values, left) := collect p rest
      (value :: values, left)
    else ([], input)
  | ⟨.error _, _⟩ => ([], input)
termination_by input.length

def many (p : Parser α) : Parser (List α) := fun input =>
  .success (collect p input).1 (collect p input).2

/-! ## Recursion -/

/-- The parser that `step` describes in terms of itself. A recursive call must be made on a shorter
input than the one at hand and fails otherwise. -/
def fix (step : Parser α → Parser α) (input : List Char) : Parsed α :=
  step
    (fun rest =>
      if rest.length < input.length then fix step rest
      else .failure (.alternatives []) rest)
    input
termination_by input.length

def shorterThan (input : List Char) (p : Parser α) : Parser α := fun rest =>
  if rest.length < input.length then p rest else .failure (.alternatives []) rest

theorem fix_eq (step : Parser α → Parser α) (input : List Char) :
    fix step input = step (shorterThan input (fix step)) input := by
  rw [fix]
  rfl

theorem shorterThan_of_lt {input rest : List Char} (p : Parser α)
    (h : rest.length < input.length) : shorterThan input p rest = p rest :=
  if_pos h

def Fails (p : Parser α) (input : List Char) : Prop :=
  ∃ error rest, p input = .failure error rest

/-! ## Equations -/

section Values

variable {p : Parser α} {input rest : List Char} {value : α}

theorem map_success (f : α → β) (h : p input = .success value rest) :
    p.map f input = .success (f value) rest := by
  simp [map, h, Parsed.success]

theorem map_failure (f : α → β) {error : ParseError} (h : p input = .failure error rest) :
    p.map f input = .failure error rest := by
  simp [map, h, Parsed.failure]

theorem Fails.map (f : α → β) (h : p.Fails input) : (p.map f).Fails input := by
  obtain ⟨error, rest, h⟩ := h
  exact ⟨error, rest, map_failure f h⟩

theorem mapOrRefuse_success {f : α → Except String β} {result : β}
    (h : p input = .success value rest) (accepted : f value = .ok result) :
    p.mapOrRefuse f input = .success result rest := by
  simp [mapOrRefuse, h, accepted, Parsed.success]

theorem mapOrRefuse_refused {f : α → Except String β} {reason : String}
    (h : p input = .success value rest) (refused : f value = .error reason) :
    p.mapOrRefuse f input = .failure (.leaf (.refused reason) (byteLength input)) input := by
  simp [mapOrRefuse, h, refused, Parsed.success]

theorem mapOrRefuse_failure (f : α → Except String β) {error : ParseError}
    (h : p input = .failure error rest) : p.mapOrRefuse f input = .failure error rest := by
  simp [mapOrRefuse, h, Parsed.failure]

theorem Fails.mapOrRefuse (f : α → Except String β) (h : p.Fails input) :
    (p.mapOrRefuse f).Fails input := by
  obtain ⟨error, rest, h⟩ := h
  exact ⟨error, rest, mapOrRefuse_failure f h⟩

end Values

section Choice

variable {p : Parser α} {ps : List (Parser α)} {input rest : List Char} {value : α}

theorem firstOf_success (ps : List (Parser α)) (h : p input = .success value rest) :
    firstOf (p :: ps) input = .success value rest := by
  simp [firstOf, tryEach, h, Parsed.success]

theorem tryEach_of_fails (ps : List (Parser α)) (h : p.Fails input) :
    ∃ error, tryEach input (p :: ps) = (tryEach input ps).mapError (error :: ·) := by
  obtain ⟨error, rest, h⟩ := h
  refine ⟨error, ?_⟩
  rw [tryEach, h]
  simp only [Parsed.failure]
  cases tryEach input ps <;> rfl

theorem firstOf_of_fails (failed : p.Fails input) (h : firstOf ps input = .success value rest) :
    firstOf (p :: ps) input = .success value rest := by
  obtain ⟨error, tried⟩ := tryEach_of_fails ps failed
  rw [firstOf, tried]
  unfold firstOf at h
  cases others : tryEach input ps with
  | ok result =>
    rw [others] at h
    exact h
  | error errors =>
    rw [others] at h
    cases h

theorem firstOf_fails (h : ∀ p ∈ ps, p.Fails input) : (firstOf ps).Fails input := by
  have tried : ∃ errors, tryEach input ps = .error errors := by
    induction ps with
    | nil => exact ⟨[], rfl⟩
    | cons p ps ih =>
      obtain ⟨errors, others⟩ := ih fun q member => h q (.tail p member)
      obtain ⟨error, tried⟩ := tryEach_of_fails ps (h p (.head ps))
      exact ⟨error :: errors, by rw [tried, others]; rfl⟩
  obtain ⟨errors, tried⟩ := tried
  exact ⟨.alternatives errors, input, by rw [firstOf, tried]⟩

theorem optional_success (h : p input = .success value rest) :
    p.optional input = .success (some value) rest := by
  simp [optional, h, Parsed.success]

theorem optional_of_fails (h : p.Fails input) : p.optional input = .success none input := by
  obtain ⟨error, rest, h⟩ := h
  simp [optional, h, Parsed.failure]

end Choice

theorem dropText?_append (text rest : List Char) : dropText? text (text ++ rest) = some rest := by
  induction text with
  | nil => rfl
  | cons c text ih => simp [dropText?, ih]

theorem eq_append_of_dropText? {text input rest : List Char}
    (h : dropText? text input = some rest) : input = text ++ rest := by
  induction text generalizing input with
  | nil => simpa [dropText?] using h
  | cons t text ih =>
    cases input with
    | nil => simp [dropText?] at h
    | cons c input =>
      simp only [dropText?] at h
      split at h
      next heq => rw [heq, ih h, List.cons_append]
      next => exact absurd h (by simp)

theorem literal_append (text : String) (rest : List Char) :
    literal text (text.toList ++ rest) = .success text.toList rest := by
  simp [literal, dropText?_append]

theorem literal_fails {text : String} {c : Char} {more input : List Char}
    (spelled : text.toList = c :: more) (other : input.head? ≠ some c) :
    (literal text).Fails input := by
  have missing : dropText? text.toList input = none := by
    rw [spelled]
    cases input with
    | nil => rfl
    | cons d input =>
      have different : c ≠ d := fun same => other (congrArg some same.symm)
      rw [dropText?, if_neg different]
  exact ⟨_, _, by rw [literal, missing]⟩

theorem takeWhile_append {pred : Char → Bool} {run rest : List Char} (hrun : ∀ c ∈ run, pred c)
    (hrest : ∀ c ∈ rest.head?, pred c = false) :
    takeWhile pred (run ++ rest) = .success run rest := by
  have front : (run ++ rest).takeWhile pred = run := by
    rw [List.takeWhile_append_of_pos hrun]
    cases rest with
    | nil => simp
    | cons c rest => simp [hrest c rfl]
  have back : (run ++ rest).dropWhile pred = rest := by
    rw [List.dropWhile_append_of_pos hrun]
    cases rest with
    | nil => rfl
    | cons c rest => simp [hrest c rfl]
  rw [takeWhile, front, back]

theorem scan_eq (pred : Char → Bool) {max count : Nat} (taken input : List Char)
    (le : count ≤ max) :
    scan pred max count taken input =
      (count + min (input.takeWhile pred).length (max - count),
        taken.reverse ++ input.take (min (input.takeWhile pred).length (max - count)),
        input.drop (min (input.takeWhile pred).length (max - count))) := by
  induction input generalizing count taken with
  | nil => simp [scan]
  | cons c input ih =>
    rw [scan]
    by_cases stop : count = max ∨ pred c = false
    · rw [if_pos stop]
      have none : min ((c :: input).takeWhile pred).length (max - count) = 0 := by
        rcases stop with rfl | stop
        · simp
        · simp [stop]
      simp [none]
    · rw [if_neg stop]
      have fits : count + 1 ≤ max := by omega
      have member : pred c = true := by simpa using (not_or.1 stop).2
      have one : min ((c :: input).takeWhile pred).length (max - count) =
          min (input.takeWhile pred).length (max - (count + 1)) + 1 := by
        simp only [List.takeWhile_cons, member, if_true, List.length_cons]
        omega
      rw [ih (c :: taken) fits, one]
      simp [Nat.add_assoc, Nat.add_comm 1]

theorem takeBetween_eq (min max : Nat) (pred : Char → Bool) (input : List Char) :
    takeBetween min max pred input =
      if Nat.min (input.takeWhile pred).length max < min then
        .failure (.leaf (.atLeast min (Nat.min (input.takeWhile pred).length max))
          (byteLength input)) input
      else
        .success (input.take (Nat.min (input.takeWhile pred).length max))
          (input.drop (Nat.min (input.takeWhile pred).length max)) := by
  rw [takeBetween, scan_eq pred [] input (Nat.zero_le max)]
  simp only [Nat.zero_add, Nat.sub_zero, List.reverse_nil, List.nil_append]

theorem takeBetween_append {min max : Nat} {pred : Char → Bool} {run rest : List Char}
    (hrun : ∀ c ∈ run, pred c) (hrest : ∀ c ∈ rest.head?, pred c = false)
    (long : min ≤ run.length) (short : run.length ≤ max) :
    takeBetween min max pred (run ++ rest) = .success run rest := by
  have front : (run ++ rest).takeWhile pred = run := by
    have read := takeWhile_append hrun hrest
    simp only [takeWhile, Parsed.success, Parsed.mk.injEq, Except.ok.injEq] at read
    exact read.1
  have count : Nat.min run.length max = run.length := Nat.min_eq_left short
  rw [takeBetween_eq, front, count, if_neg (Nat.not_lt.2 long), List.take_left, List.drop_left]

theorem takeBetween_fails {min max : Nat} {pred : Char → Bool} {input : List Char}
    (hinput : ∀ c ∈ input.head?, pred c = false) (positive : 0 < min) :
    (takeBetween min max pred).Fails input := by
  have none : input.takeWhile pred = [] := by
    cases input with
    | nil => rfl
    | cons c input => simp [hinput c rfl]
  refine ⟨.leaf (.atLeast min 0) (byteLength input), input, ?_⟩
  rw [takeBetween_eq, none, List.length_nil]
  have zero : Nat.min 0 max = 0 := Nat.zero_min max
  rw [zero, if_pos positive]

theorem collect_eq (p : Parser α) (input : List Char) :
    collect p input =
      match p input with
      | ⟨.ok value, rest⟩ =>
        if rest.length < input.length then
          (value :: (collect p rest).1, (collect p rest).2)
        else ([], input)
      | ⟨.error _, _⟩ => ([], input) := by
  rw [collect]

theorem collect_success {p : Parser α} {input rest : List Char} {value : α}
    (h : p input = .success value rest) (shorter : rest.length < input.length) :
    collect p input = (value :: (collect p rest).1, (collect p rest).2) := by
  rw [collect_eq, h]
  exact if_pos shorter

theorem collect_of_fails {p : Parser α} {input : List Char} (h : p.Fails input) :
    collect p input = ([], input) := by
  obtain ⟨error, rest, h⟩ := h
  rw [collect_eq, h]
  rfl

theorem many_eq (p : Parser α) (input : List Char) :
    many p input = .success (collect p input).1 (collect p input).2 := rfl

end Parser

end ErrorML
