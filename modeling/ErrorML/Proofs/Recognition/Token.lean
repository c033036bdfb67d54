import ErrorML.Proofs.Parsing.Inversion
import ErrorML.Proofs.Reading.Token

namespace ErrorML.Grammar

open ErrorML.Parser ErrorML.Sequence

variable {α β : Type} {word text digits : String} {input rest : List Char}

theorem lexeme_accepts {p : Parser α} {value : α} (run : lexeme p input = .success value rest) :
    ∃ after, p input = .success value after ∧ skip after = rest := by
  obtain ⟨skipped, after, inner, blanks⟩ := success_of_thenSkip run
  exact ⟨after, inner, (Parsed.success_inj.1 blanks).2⟩

theorem readToken_accepts {read : α → Except TokenError β} {p : Parser α} {result : β}
    (run : readToken read p input = .success result rest) :
    ∃ value, p input = .success value rest ∧ read value = .ok result := by
  obtain ⟨value, inner, accepted⟩ := success_of_mapOrRefuse run
  refine ⟨value, inner, ?_⟩
  cases found : read value with
  | ok found' =>
    rw [found] at accepted
    cases accepted
    rfl
  | error reason =>
    rw [found] at accepted
    cases accepted

theorem symbol_accepts {found : List Char} (run : symbol text input = .success found rest) :
    Symbol text input rest := by
  obtain ⟨after, inner, blanks⟩ := lexeme_accepts run
  unfold literal at inner
  split at inner
  · rename_i left dropped
    obtain ⟨-, rfl⟩ := Parsed.success_inj.1 inner
    exact ⟨left, eq_append_of_dropText? dropped, blanks⟩
  · cases inner

theorem keyword_accepts (run : keyword word input = .success () rest) : Word word input rest := by
  obtain ⟨after, inner, blanks⟩ := lexeme_accepts run
  obtain ⟨found, run, accepted⟩ := success_of_mapOrRefuse inner
  obtain ⟨rfl, rfl⟩ := Parsed.success_inj.1 run
  split at accepted
  · rename_i same
    exact ⟨same, blanks⟩
  · cases accepted

theorem identifier_accepts (run : identifier input = .success word rest) :
    isIdentifier word = true ∧ Word word input rest := by
  obtain ⟨after, inner, blanks⟩ := lexeme_accepts run
  obtain ⟨found, run, accepted⟩ := readToken_accepts inner
  obtain ⟨rfl, rfl⟩ := Parsed.success_inj.1 run
  obtain ⟨spelled, identifier⟩ := (readIdentifier_eq_ok_iff (run_inside input)).1 accepted
  refine ⟨identifier, ?_, blanks⟩
  rw [leadingWord, ← spelled, String.ofList_toList]

theorem binder_accepts (run : binder input = .success word rest) : Binder word input rest := by
  obtain ⟨p, member, form⟩ := success_of_firstOf run
  simp only [List.mem_cons, List.not_mem_nil, or_false] at member
  rcases member with rfl | rfl
  · exact .inl (identifier_accepts form)
  · obtain ⟨found, dot, rfl⟩ := success_of_map form
    exact .inr ⟨rfl, symbol_accepts dot⟩

theorem boolean_accepts {b : Bool} (run : boolean input = .success b rest) :
    Word (if b then "true" else "false") input rest := by
  obtain ⟨p, member, form⟩ := success_of_firstOf run
  simp only [List.mem_cons, List.not_mem_nil, or_false] at member
  rcases member with rfl | rfl
  · obtain ⟨_, word, rfl⟩ := success_of_map form
    exact keyword_accepts word
  · obtain ⟨_, word, rfl⟩ := success_of_map form
    exact keyword_accepts word

theorem takeBetween_accepts {min max : Nat} {pred : Char → Bool} {taken : List Char}
    (run : takeBetween min max pred input = .success taken rest) :
    input = taken ++ rest ∧ (∀ c ∈ taken, pred c = true) ∧ min ≤ taken.length ∧
      taken.length ≤ max := by
  rw [takeBetween_eq] at run
  split at run
  · cases run
  · rename_i enough
    obtain ⟨rfl, rfl⟩ := Parsed.success_inj.1 run
    have prefixed := List.takeWhile_prefix pred (l := input)
    have le : Nat.min (input.takeWhile pred).length max ≤ (input.takeWhile pred).length :=
      Nat.min_le_left _ max
    have front : input.take (Nat.min (input.takeWhile pred).length max) <+: input.takeWhile pred :=
      List.prefix_of_prefix_length_le (List.take_prefix _ input) prefixed
        (Nat.le_trans (List.length_take_le _ input) le)
    have count : (input.take (Nat.min (input.takeWhile pred).length max)).length =
        Nat.min (input.takeWhile pred).length max :=
      List.length_take_of_le (Nat.le_trans le prefixed.length_le)
    refine ⟨(List.take_append_drop _ input).symm, ?_, ?_, ?_⟩
    · intro c member
      exact List.all_eq_true.1 List.all_takeWhile c (front.mem member)
    · omega
    · rw [count]
      exact Nat.min_le_right _ max

theorem digits_accepts {found after : List Char} (run : Grammar.digits input = .success found rest)
    (closed : takeWhile isIdentifierChar rest = .success [] after) :
    after = rest ∧ Numeral (String.ofList found) (readDigits found) ∧
      Word (String.ofList found) input (skip rest) := by
  obtain ⟨rfl, digit, nonempty, short⟩ := takeBetween_accepts run
  obtain ⟨none, rfl⟩ := Parsed.success_inj.1 closed
  have whole := List.takeWhile_append_dropWhile (p := isIdentifierChar) (l := rest)
  rw [none, List.nil_append] at whole
  have boundary := boundary_dropWhile rest
  rw [whole] at boundary
  have numeral : Numeral (String.ofList found) (readDigits found) := by
    refine ⟨?_, ?_, ?_, ?_⟩
    · intro empty
      rw [← String.toList_eq_nil_iff, String.toList_ofList] at empty
      rw [empty] at nonempty
      cases nonempty
    all_goals rw [String.toList_ofList]
    · exact digit
    · exact short
  have read := Word.append _ numeral.inside boundary
  rw [String.toList_ofList] at read
  exact ⟨whole, numeral, read⟩

theorem integer_accepts {signed : Bool} {v : Int64}
    (run : integer signed input = .success v rest) :
    ∃ digits n, Numeral digits n ∧
      ((Word digits input rest ∧ int64? n = some v) ∨
        (signed = true ∧ ∃ after, input = '-' :: after ∧ Word digits after rest ∧
          int64? (-n) = some v)) := by
  obtain ⟨⟨sign, found, tail⟩, token, accepted⟩ := readToken_accepts run
  obtain ⟨after, inner, rfl⟩ := lexeme_accepts token
  obtain ⟨f, b, t, run₂, closed, same⟩ := (Runs.of_parser inner).of_next
  obtain ⟨g, a, d, run₁, digits, rfl⟩ := run₂.of_next
  obtain ⟨h, start, s, run₀, minus, rfl⟩ := run₁.of_next
  obtain ⟨rfl, rfl⟩ := run₀.of_of
  cases same
  obtain ⟨rfl, dashes, -, few⟩ := takeBetween_accepts minus
  unfold readInteger at accepted
  dsimp only at accepted
  split at accepted
  · cases accepted
  · rename_i nothing
    obtain rfl : tail = [] := Classical.not_not.1 nothing
    obtain ⟨rfl, numeral, word⟩ := digits_accepts digits closed
    split at accepted
    · rename_i n fits
      cases accepted
      refine ⟨_, _, numeral, ?_⟩
      match sign, dashes, few with
      | [], _, _ => exact .inl ⟨word, fits⟩
      | [c], dashes, few =>
        have dash : c = '-' := by simpa using dashes
        subst dash
        have admitted : signed = true := by
          cases signed with
          | true => rfl
          | false => cases few
        exact .inr ⟨admitted, a, rfl, word, fits⟩
      | _ :: _ :: more, _, few =>
        have many : more.length + 2 ≤ if signed then 1 else 0 := few
        split at many <;> omega
    · cases accepted

theorem index_accepts {n : Nat} (run : index input = .success n rest) :
    ∃ digits after, Numeral digits n ∧ input = '#' :: after ∧ Word digits after rest ∧ 1 ≤ n ∧
      n ≤ maxWord := by
  obtain ⟨⟨found, tail⟩, token, accepted⟩ := readToken_accepts run
  obtain ⟨after, inner, rfl⟩ := lexeme_accepts token
  obtain ⟨f, b, t, run₂, closed, same⟩ := (Runs.of_parser inner).of_next
  obtain ⟨g, a, d, run₁, digits, rfl⟩ := run₂.of_next
  obtain ⟨h, start, s, run₀, sharp, rfl⟩ := run₁.of_next
  obtain ⟨rfl, rfl⟩ := run₀.of_of
  cases same
  have front : input = '#' :: a := by
    unfold literal at sharp
    split at sharp
    · rename_i left dropped
      obtain ⟨-, rfl⟩ := Parsed.success_inj.1 sharp
      exact eq_append_of_dropText? dropped
    · cases sharp
  unfold readIndex at accepted
  dsimp only at accepted
  split at accepted
  · cases accepted
  · rename_i nothing
    obtain rfl : tail = [] := Classical.not_not.1 nothing
    obtain ⟨rfl, numeral, word⟩ := digits_accepts digits closed
    split at accepted
    · cases accepted
    · split at accepted
      · cases accepted
      · cases accepted
        exact ⟨_, _, numeral, front, word, by omega, by omega⟩

end ErrorML.Grammar
