import ErrorML.Proofs.Parsing.Progress
import ErrorML.Proofs.Parsing.Repetition

namespace ErrorML

variable {α β γ : Type}

namespace Parser

variable {input rest : List Char}

theorem success_of_map {f : α → β} {p : Parser α} {result : β}
    (run : p.map f input = .success result rest) :
    ∃ value, p input = .success value rest ∧ f value = result := by
  obtain ⟨value, left, inner⟩ | ⟨error, left, inner⟩ := (p input).success_or_failure
  · rw [map_success f inner] at run
    obtain ⟨same, rfl⟩ := Parsed.success_inj.1 run
    exact ⟨value, inner, same⟩
  · rw [map_failure f inner] at run
    cases run

theorem success_of_mapOrRefuse {f : α → Except String β} {p : Parser α} {result : β}
    (run : p.mapOrRefuse f input = .success result rest) :
    ∃ value, p input = .success value rest ∧ f value = .ok result := by
  obtain ⟨value, left, inner⟩ | ⟨error, left, inner⟩ := (p input).success_or_failure
  · cases read : f value with
    | ok accepted =>
      rw [mapOrRefuse_success inner read] at run
      obtain ⟨rfl, rfl⟩ := Parsed.success_inj.1 run
      exact ⟨value, inner, read⟩
    | error reason =>
      rw [mapOrRefuse_refused inner read] at run
      cases run
  · rw [mapOrRefuse_failure f inner] at run
    cases run

theorem success_of_firstOf {ps : List (Parser α)} {value : α}
    (run : firstOf ps input = .success value rest) :
    ∃ p ∈ ps, p input = .success value rest := by
  induction ps with
  | nil => cases run
  | cons p ps ih =>
    obtain ⟨found, left, inner⟩ | ⟨error, left, inner⟩ := (p input).success_or_failure
    · rw [firstOf_success ps inner] at run
      exact ⟨p, .head ps, inner.trans run⟩
    · obtain ⟨error, tried⟩ := tryEach_of_fails ps ⟨error, left, inner⟩
      have others : firstOf ps input = .success value rest := by
        unfold firstOf at run ⊢
        rw [tried] at run
        cases rest : tryEach input ps with
        | ok result =>
          rw [rest] at run
          exact run
        | error errors =>
          rw [rest] at run
          cases run
      obtain ⟨q, member, inner⟩ := ih others
      exact ⟨q, .tail p member, inner⟩

theorem success_of_optional {p : Parser α} {found : Option α}
    (run : p.optional input = .success found rest) :
    (∃ value, p input = .success value rest ∧ found = some value) ∨
      (found = none ∧ rest = input) := by
  obtain ⟨value, left, inner⟩ | ⟨error, left, inner⟩ := (p input).success_or_failure
  · rw [optional_success inner] at run
    obtain ⟨rfl, rfl⟩ := Parsed.success_inj.1 run
    exact .inl ⟨value, inner, rfl⟩
  · rw [optional_of_fails ⟨error, left, inner⟩] at run
    obtain ⟨rfl, rfl⟩ := Parsed.success_inj.1 run
    exact .inr ⟨rfl, rfl⟩

theorem failure_of_map {f : α → β} {p : Parser α} {error : ParseError}
    (run : p.map f input = .failure error rest) : p input = .failure error rest := by
  obtain ⟨value, left, inner⟩ | ⟨cause, left, inner⟩ := (p input).success_or_failure
  · rw [map_success f inner] at run
    cases run
  · rw [map_failure f inner] at run
    cases run
    exact inner

theorem failure_of_mapOrRefuse {f : α → Except String β} {p : Parser α} {error : ParseError}
    (run : p.mapOrRefuse f input = .failure error rest) :
    p input = .failure error rest ∨ ∃ value reason, f value = .error reason ∧
      error = .leaf (.refused reason) (byteLength input) := by
  obtain ⟨value, left, inner⟩ | ⟨cause, left, inner⟩ := (p input).success_or_failure
  · cases read : f value with
    | ok result =>
      rw [mapOrRefuse_success inner read] at run
      cases run
    | error reason =>
      rw [mapOrRefuse_refused inner read] at run
      cases run
      exact .inr ⟨value, reason, read, rfl⟩
  · rw [mapOrRefuse_failure f inner] at run
    cases run
    exact .inl inner

theorem failures_of_tryEach {ps : List (Parser α)} {errors : List ParseError}
    (tried : tryEach input ps = .error errors) :
    errors.length = ps.length ∧
      ∀ error ∈ errors, ∃ p ∈ ps, ∃ left, p input = .failure error left := by
  induction ps generalizing errors with
  | nil =>
    cases tried
    simp
  | cons p ps ih =>
    rw [tryEach] at tried
    split at tried
    · cases tried
    · rename_i error left inner
      split at tried
      · cases tried
      · rename_i others rest
        cases tried
        obtain ⟨count, each⟩ := ih rest
        refine ⟨congrArg Nat.succ count, List.forall_mem_cons.2 ⟨⟨p, .head ps, left, inner⟩, ?_⟩⟩
        intro cause member
        obtain ⟨q, other, run⟩ := each cause member
        exact ⟨q, .tail p other, run⟩

theorem failure_of_firstOf {ps : List (Parser α)} {error : ParseError}
    (run : firstOf ps input = .failure error rest) :
    ∃ errors, error = .alternatives errors ∧ errors.length = ps.length ∧
      ∀ cause ∈ errors, ∃ p ∈ ps, ∃ left, p input = .failure cause left := by
  unfold firstOf at run
  split at run
  · cases run
  · rename_i errors tried
    cases run
    exact ⟨errors, rfl, failures_of_tryEach tried⟩

theorem optional_ne_failure (p : Parser α) {error : ParseError} :
    p.optional input ≠ .failure error rest := by
  intro run
  obtain ⟨value, left, inner⟩ | ⟨cause, left, inner⟩ := (p input).success_or_failure
  · rw [optional_success inner] at run
    cases run
  · rw [optional_of_fails ⟨cause, left, inner⟩] at run
    cases run

end Parser

namespace Sequence

variable {input rest : List Char}

theorem Runs.of_parser {s : Sequence α} {value : α} (run : s.parser input = .success value rest) :
    s.Runs input value rest := by
  unfold Sequence.parser at run
  split at run
  · rename_i found left before
    obtain ⟨rfl, rfl⟩ := Parsed.success_inj.1 run
    exact before
  · cases run

theorem Runs.of_next {s : Sequence (α → β)} {p : Parser α} {result : β}
    (run : (s.next p).Runs input result rest) :
    ∃ f middle value, s.Runs input f middle ∧ p middle = .success value rest ∧
      f value = result := by
  unfold Runs at run
  rw [run_next] at run
  split at run
  · cases run
  · rename_i f middle before
    split at run
    · rename_i value left inner
      cases run
      exact ⟨f, middle, value, before, inner, rfl⟩
    · cases run

theorem Runs.of_of {start value : α} (run : (Sequence.of start).Runs input value rest) :
    value = start ∧ input = rest := by
  cases run
  exact ⟨rfl, rfl⟩

theorem error_of_failure {s : Sequence α} {error : ParseError}
    (run : s.parser input = .failure error rest) : s.run input = .error error := by
  unfold Sequence.parser at run
  split at run
  · cases run
  · rename_i before
    cases run
    exact before

theorem error_of_next {s : Sequence (α → β)} {p : Parser α} {error : ParseError}
    (run : (s.next p).run input = .error error) :
    s.run input = .error error ∨ ∃ f middle cause left, s.Runs input f middle ∧
      p middle = .failure cause left ∧ error = .element s.size cause := by
  rw [run_next] at run
  split at run
  · rename_i before
    cases run
    exact .inl before
  · rename_i f middle before
    split at run
    · cases run
    · rename_i inner
      cases run
      exact .inr ⟨f, middle, _, _, before, inner, rfl⟩

end Sequence

namespace Parser

open ErrorML.Sequence

variable {input rest : List Char}

theorem success_of_skipThen {first : Parser α} {second : Parser β} {value : β}
    (run : first.skipThen second input = .success value rest) :
    ∃ skipped middle, first input = .success skipped middle ∧
      second middle = .success value rest := by
  obtain ⟨f, b, w, run₁, last, rfl⟩ := (Runs.of_parser run).of_next
  obtain ⟨g, a, v, run₀, head, rfl⟩ := run₁.of_next
  obtain ⟨rfl, rfl⟩ := run₀.of_of
  exact ⟨v, b, head, last⟩

theorem success_of_thenSkip {first : Parser α} {second : Parser β} {value : α}
    (run : first.thenSkip second input = .success value rest) :
    ∃ skipped middle, first input = .success value middle ∧
      second middle = .success skipped rest := by
  obtain ⟨f, b, w, run₁, last, rfl⟩ := (Runs.of_parser run).of_next
  obtain ⟨g, a, v, run₀, head, rfl⟩ := run₁.of_next
  obtain ⟨rfl, rfl⟩ := run₀.of_of
  exact ⟨w, b, head, last⟩

theorem success_of_between {opening : Parser α} {inner : Parser β} {closing : Parser γ} {value : β}
    (run : opening.between inner closing input = .success value rest) :
    ∃ left a b right, opening input = .success left a ∧ inner a = .success value b ∧
      closing b = .success right rest := by
  obtain ⟨f, c, right, run₂, last, rfl⟩ := (Runs.of_parser run).of_next
  obtain ⟨g, b, v, run₁, middle, rfl⟩ := run₂.of_next
  obtain ⟨h, a, left, run₀, head, rfl⟩ := run₁.of_next
  obtain ⟨rfl, rfl⟩ := run₀.of_of
  exact ⟨left, b, c, right, head, middle, last⟩

theorem Rounds.cons {p : Parser α} {middle : List Char} {value : α} {values : List α}
    (run : p input = .success value middle) (shorter : middle.length < input.length)
    (rounds : Rounds p middle values rest) : Rounds p input (value :: values) rest := by
  induction rounds with
  | done =>
    have round : Rounds p input ([] ++ [value]) middle := .more .done run shorter
    exact round
  | more _ last less ih => exact .more ih last less

theorem Rounds.of_collect (p : Parser α) (input : List Char) :
    Rounds p input (Parser.collect p input).1 (Parser.collect p input).2 := by
  rw [collect_eq]
  split
  · rename_i value rest run
    split
    · rename_i shorter
      exact .cons run shorter (of_collect p rest)
    · exact .done
  · exact .done
termination_by input.length

theorem Rounds.of_many {p : Parser α} {values : List α}
    (run : Parser.many p input = .success values rest) : Rounds p input values rest := by
  obtain ⟨rfl, rfl⟩ := Parsed.success_inj.1 run
  exact .of_collect p input

end Parser

end ErrorML
