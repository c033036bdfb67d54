import ErrorML.Grammar.Judgment

namespace ErrorML

variable {α β γ : Type}

structure Parser.Takes (k : Nat) (p : Parser α) : Prop where
  success : ∀ {input value rest}, p input = .success value rest →
    rest <:+ input ∧ rest.length + k ≤ input.length
  failure : ∀ {input error rest}, p input = .failure error rest → rest = input

def Sequence.Takes (k : Nat) (s : Sequence α) : Prop :=
  ∀ ⦃input value rest⦄, s.Runs input value rest → rest <:+ input ∧ rest.length + k ≤ input.length

theorem Parsed.success_inj {v w : α} {rest left : List Char} :
    success v rest = success w left ↔ v = w ∧ rest = left := by
  simp [success]

theorem Parsed.eq_success_iff {result : Parsed α} {value : α} {rest : List Char} :
    result = success value rest ↔
      result.outcome.toOption = some value ∧ result.remaining = rest := by
  obtain ⟨error | found, left⟩ := result
  · simp [success, Except.toOption]
  · simp [success, Except.toOption]

/-! ## Sequences -/

namespace Sequence

variable {j k : Nat}

theorem of_takes (value : α) : (of value).Takes 0 := by
  intro input value rest h
  cases h
  exact ⟨List.suffix_refl input, Nat.le_refl input.length⟩

theorem Takes.next {s : Sequence (α → β)} {p : Parser α} (first : s.Takes j) (second : p.Takes k) :
    (s.next p).Takes (j + k) := by
  intro input value rest h
  unfold Runs at h
  rw [run_next] at h
  split at h
  · cases h
  · rename_i f middle before
    obtain ⟨front, count⟩ := first before
    split at h
    · rename_i v left run
      cases h
      obtain ⟨back, count'⟩ := second.success run
      exact ⟨back.trans front, by omega⟩
    · cases h

theorem Takes.parser {s : Sequence α} (h : s.Takes k) : s.parser.Takes k where
  success := by
    intro input value rest run
    unfold Sequence.parser at run
    split at run
    · rename_i v left before
      obtain ⟨rfl, rfl⟩ := Parsed.success_inj.1 run
      exact h before
    · cases run
  failure := by
    intro input error rest run
    unfold Sequence.parser at run
    split at run
    · cases run
    · cases run
      rfl

end Sequence

/-! ## Combinators -/

namespace Parser

variable {j k : Nat} {p : Parser α} {q : Parser β}

theorem Takes.weaken (h : p.Takes k) (le : j ≤ k) : p.Takes j where
  success := by
    intro input value rest run
    obtain ⟨front, count⟩ := h.success run
    exact ⟨front, by omega⟩
  failure := h.failure

theorem literal_takes (text : String) : (literal text).Takes text.toList.length where
  success := by
    intro input value rest run
    unfold literal at run
    split at run
    · rename_i left found
      obtain ⟨-, rfl⟩ := Parsed.success_inj.1 run
      have whole := eq_append_of_dropText? found
      refine ⟨⟨text.toList, whole.symm⟩, ?_⟩
      rw [whole, List.length_append]
      omega
    · cases run
  failure := by
    intro input error rest run
    unfold literal at run
    split at run
    · cases run
    · cases run
      rfl

theorem takeWhile_takes (pred : Char → Bool) : (takeWhile pred).Takes 0 where
  success := by
    intro input value rest run
    obtain ⟨-, rfl⟩ := Parsed.success_inj.1 run
    have front : input.dropWhile pred <:+ input := List.dropWhile_suffix pred
    exact ⟨front, front.length_le⟩
  failure := by
    intro input error rest run
    cases run

theorem takeBetween_takes (min max : Nat) (pred : Char → Bool) :
    (takeBetween min max pred).Takes min where
  success := by
    intro input value rest run
    rw [takeBetween_eq] at run
    split at run
    · cases run
    · rename_i enough
      obtain ⟨-, rfl⟩ := Parsed.success_inj.1 run
      have run_le : (input.takeWhile pred).length ≤ input.length :=
        (List.takeWhile_prefix pred).length_le
      have fits : Nat.min (input.takeWhile pred).length max ≤ input.length :=
        Nat.le_trans (Nat.min_le_left _ max) run_le
      refine ⟨List.drop_suffix _ input, ?_⟩
      rw [List.length_drop]
      omega
  failure := by
    intro input error rest run
    rw [takeBetween_eq] at run
    split at run
    · cases run
      rfl
    · cases run

theorem Takes.map (h : p.Takes k) (f : α → β) : (p.map f).Takes k where
  success := by
    intro input value rest run
    obtain ⟨v, left, inner⟩ | ⟨error, left, inner⟩ := (p input).success_or_failure
    · rw [map_success f inner] at run
      obtain ⟨-, rfl⟩ := Parsed.success_inj.1 run
      exact h.success inner
    · rw [map_failure f inner] at run
      cases run
  failure := by
    intro input error rest run
    obtain ⟨v, left, inner⟩ | ⟨e, left, inner⟩ := (p input).success_or_failure
    · rw [map_success f inner] at run
      cases run
    · rw [map_failure f inner] at run
      cases run
      exact h.failure inner

theorem Takes.mapOrRefuse (h : p.Takes k) (f : α → Except String β) :
    (p.mapOrRefuse f).Takes k where
  success := by
    intro input value rest run
    obtain ⟨v, left, inner⟩ | ⟨error, left, inner⟩ := (p input).success_or_failure
    · cases read : f v with
      | ok result =>
        rw [mapOrRefuse_success inner read] at run
        obtain ⟨-, rfl⟩ := Parsed.success_inj.1 run
        exact h.success inner
      | error reason =>
        rw [mapOrRefuse_refused inner read] at run
        cases run
    · rw [mapOrRefuse_failure f inner] at run
      cases run
  failure := by
    intro input error rest run
    obtain ⟨v, left, inner⟩ | ⟨e, left, inner⟩ := (p input).success_or_failure
    · cases read : f v with
      | ok result =>
        rw [mapOrRefuse_success inner read] at run
        cases run
      | error reason =>
        rw [mapOrRefuse_refused inner read] at run
        cases run
        rfl
    · rw [mapOrRefuse_failure f inner] at run
      cases run
      exact h.failure inner

theorem tryEach_takes {ps : List (Parser α)} (h : ∀ p ∈ ps, p.Takes k) {input rest : List Char}
    {value : α} (run : tryEach input ps = .ok (value, rest)) :
    rest <:+ input ∧ rest.length + k ≤ input.length := by
  induction ps with
  | nil => cases run
  | cons p ps ih =>
    rw [tryEach] at run
    split at run
    · rename_i v left inner
      cases run
      exact (h p (.head ps)).success inner
    · split at run
      · rename_i others
        cases run
        exact ih (fun q member => h q (.tail p member)) others
      · cases run

theorem firstOf_takes {ps : List (Parser α)} (h : ∀ p ∈ ps, p.Takes k) : (firstOf ps).Takes k where
  success := by
    intro input value rest run
    unfold firstOf at run
    split at run
    · rename_i v left tried
      obtain ⟨-, rfl⟩ := Parsed.success_inj.1 run
      exact tryEach_takes h tried
    · cases run
  failure := by
    intro input error rest run
    unfold firstOf at run
    split at run
    · cases run
    · cases run
      rfl

theorem Takes.optional (h : p.Takes k) : p.optional.Takes 0 where
  success := by
    intro input value rest run
    obtain ⟨v, left, inner⟩ | ⟨error, left, inner⟩ := (p input).success_or_failure
    · rw [optional_success inner] at run
      obtain ⟨-, rfl⟩ := Parsed.success_inj.1 run
      obtain ⟨front, count⟩ := h.success inner
      exact ⟨front, by omega⟩
    · rw [optional_of_fails ⟨error, left, inner⟩] at run
      obtain ⟨-, rfl⟩ := Parsed.success_inj.1 run
      exact ⟨List.suffix_refl _, Nat.le_refl _⟩
  failure := by
    intro input error rest run
    obtain ⟨v, left, inner⟩ | ⟨e, left, inner⟩ := (p input).success_or_failure
    · rw [optional_success inner] at run
      cases run
    · rw [optional_of_fails ⟨e, left, inner⟩] at run
      cases run

theorem Takes.collect (h : p.Takes k) (input : List Char) : (collect p input).2 <:+ input := by
  rw [collect_eq]
  split
  · rename_i value rest run
    split
    · rename_i shorter
      exact (Takes.collect h rest).trans (h.success run).1
    · exact List.suffix_refl input
  · exact List.suffix_refl input
termination_by input.length

theorem Takes.many (h : p.Takes k) : (many p).Takes 0 where
  success := by
    intro input values rest run
    obtain ⟨-, rfl⟩ := Parsed.success_inj.1 run
    exact ⟨h.collect input, (h.collect input).length_le⟩
  failure := by
    intro input error rest run
    cases run

/-! ## Recursion -/

theorem Takes.restrict {keep : List Char → Prop} [DecidablePred keep]
    {error : List Char → ParseError}
    (success : ∀ {rest value left}, keep rest → p rest = .success value left →
      left <:+ rest ∧ left.length + k ≤ rest.length)
    (failure : ∀ {rest error left}, keep rest → p rest = .failure error left → left = rest) :
    Takes k fun rest => if keep rest then p rest else .failure (error rest) rest where
  success := by
    intro rest value left run
    by_cases kept : keep rest
    · rw [if_pos kept] at run
      exact success kept run
    · rw [if_neg kept] at run
      cases run
  failure := by
    intro rest error left run
    by_cases kept : keep rest
    · rw [if_pos kept] at run
      exact failure kept run
    · rw [if_neg kept] at run
      cases run
      rfl

theorem fix_takes {step : Parser α → Parser α} (h : ∀ p, Takes k p → Takes k (step p)) :
    Takes k (fix step) := by
  -- By induction on a bound of the length: the recursive calls are made on shorter inputs.
  have below : ∀ n input, input.length < n → Takes k (shorterThan input (fix step)) := by
    intro n
    induction n with
    | zero =>
      intro input le
      omega
    | succ n ih =>
      intro input le
      apply Takes.restrict
      · intro rest value left shorter run
        rw [fix_eq] at run
        exact (h _ (ih rest (by omega))).success run
      · intro rest error left shorter run
        rw [fix_eq] at run
        exact (h _ (ih rest (by omega))).failure run
  refine ⟨?_, ?_⟩
  · intro input value rest run
    rw [fix_eq] at run
    exact (h _ (below _ input (Nat.lt_succ_self _))).success run
  · intro input error rest run
    rw [fix_eq] at run
    exact (h _ (below _ input (Nat.lt_succ_self _))).failure run

end Parser

/-! ## The grammar -/

namespace Grammar

open ErrorML.Parser ErrorML.Sequence

theorem lexeme_takes {p : Parser α} {k : Nat} (h : p.Takes k) : (lexeme p).Takes k :=
  (((of_takes _).next h).next (takeWhile_takes _)).parser.weaken (by omega)

theorem symbol_takes {text : String} (nonempty : text ≠ "") : (symbol text).Takes 1 := by
  have positive : 1 ≤ text.toList.length :=
    List.length_pos_iff.2 fun empty => nonempty (String.toList_eq_nil_iff.1 empty)
  exact (lexeme_takes (literal_takes text)).weaken positive

theorem takeWhile_mapOrRefuse_takes {pred : Char → Bool} {f : List Char → Except String β}
    (h : ∀ result, f [] ≠ .ok result) : ((takeWhile pred).mapOrRefuse f).Takes 1 where
  success := by
    intro input value rest run
    have inner : takeWhile pred input =
        .success (input.takeWhile pred) (input.dropWhile pred) := rfl
    cases read : f (input.takeWhile pred) with
    | error reason =>
      rw [mapOrRefuse_refused inner read] at run
      cases run
    | ok result =>
      rw [mapOrRefuse_success inner read] at run
      obtain ⟨-, rfl⟩ := Parsed.success_inj.1 run
      have nonempty : input.takeWhile pred ≠ [] := by
        intro empty
        rw [empty] at read
        exact h result read
      have positive := List.length_pos_iff.2 nonempty
      have whole := congrArg List.length (List.takeWhile_append_dropWhile (p := pred) (l := input))
      rw [List.length_append] at whole
      exact ⟨List.dropWhile_suffix pred, by omega⟩
  failure := ((takeWhile_takes pred).mapOrRefuse f).failure

theorem keyword_takes {word : String} (nonempty : word ≠ "") : (keyword word).Takes 1 := by
  apply lexeme_takes
  apply takeWhile_mapOrRefuse_takes
  intro result read
  have other : String.ofList [] ≠ word := fun same => nonempty same.symm
  rw [if_neg other] at read
  cases read

theorem identifier_takes : identifier.Takes 1 := by
  apply lexeme_takes
  apply takeWhile_mapOrRefuse_takes
  intro result read
  cases read

theorem binder_takes : binder.Takes 1 := by
  apply firstOf_takes
  intro p member
  simp only [List.mem_cons, List.not_mem_nil, or_false] at member
  rcases member with rfl | rfl
  · exact identifier_takes
  · exact (symbol_takes (by decide)).map _

theorem boolean_takes : boolean.Takes 1 := by
  apply firstOf_takes
  intro p member
  simp only [List.mem_cons, List.not_mem_nil, or_false] at member
  rcases member with rfl | rfl
  · exact (keyword_takes (by decide)).map _
  · exact (keyword_takes (by decide)).map _

theorem integer_takes (signed : Bool) : (integer signed).Takes 1 := by
  have parts := ((of_takes fun sign digits tail => (sign, digits, tail)).next
    (takeBetween_takes 0 (if signed then 1 else 0) (· == '-'))).next
      (takeBetween_takes 1 maxWord Char.isDigit) |>.next (takeWhile_takes isIdentifierChar)
  exact (lexeme_takes parts.parser).mapOrRefuse _

theorem index_takes : index.Takes 2 := by
  have parts := ((of_takes fun _ digits tail => (digits, tail)).next (literal_takes "#")).next
    (takeBetween_takes 1 maxWord Char.isDigit) |>.next (takeWhile_takes isIdentifierChar)
  exact (lexeme_takes parts.parser).mapOrRefuse _

end Grammar

end ErrorML
