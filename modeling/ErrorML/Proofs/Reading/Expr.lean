import ErrorML.Grammar.Source
import ErrorML.Proofs.Reading.Chain
import ErrorML.Proofs.WellFormed

namespace ErrorML

open Grammar

theorem readDigits_toDigits (n : Nat) : readDigits (Nat.toDigits 10 n) = n := by
  have digit (d : Nat) (small : d < 10) : (Nat.digitChar d).toNat - '0'.toNat = d := by
    rw [Nat.toNat_digitChar_of_lt_ten small]
    exact Nat.add_sub_cancel_left '0'.toNat d
  induction n using Nat.strongRecOn with
  | _ n ih =>
    rw [Nat.toDigits_eq_if (by decide)]
    by_cases small : n < 10
    · rw [if_pos small]
      simpa [readDigits] using digit n small
    · rw [if_neg small, readDigits_append, ih (n / 10) (by omega),
        digit (n % 10) (Nat.mod_lt n (by decide))]
      exact Nat.div_add_mod n 10

theorem isDigit_of_mem_toString {n : Nat} {c : Char} (member : c ∈ (toString n).toList) :
    c.isDigit = true := by
  rw [Nat.toString_eq_repr, Nat.toList_repr] at member
  exact Nat.isDigit_of_mem_toDigits (by decide) (by decide) member

theorem numeral_toString {n : Nat} (fits : n ≤ maxWord) : Numeral (toString n) n where
  nonempty := Nat.repr_ne_empty
  digit := fun _ member => isDigit_of_mem_toString member
  short := by
    rw [Nat.toString_eq_repr, Nat.toList_repr]
    have few : (Nat.toDigits 10 n).length ≤ 20 := by
      rw [Nat.length_toDigits_le_iff (by decide) (by decide)]
      exact Nat.lt_of_le_of_lt fits (by decide)
    exact Nat.le_trans few (by decide)
  number := by
    rw [Nat.toString_eq_repr, Nat.toList_repr]
    exact readDigits_toDigits n

theorem integerText_of_nonneg {n : Int64} (nonneg : 0 ≤ n.toInt) :
    integerText n = toString n.toInt.toNat := by
  rw [integerText, Int.toString_eq_repr, Int.repr_eq_if, if_pos nonneg]
  rfl

theorem integerText_of_neg {n : Int64} (negative : n.toInt < 0) :
    integerText n = "-" ++ toString (-n.toInt).toNat := by
  rw [integerText, Int.toString_eq_repr, Int.repr_eq_if, if_neg (Int.not_le.2 negative)]
  rfl

theorem integerText_ne_empty (n : Int64) : integerText n ≠ "" := by
  rcases Int.lt_or_le n.toInt 0 with negative | nonneg
  · rw [integerText_of_neg negative]
    intro empty
    exact absurd (String.append_eq_empty_iff.1 empty).1 (by decide)
  · rw [integerText_of_nonneg nonneg]
    exact Nat.repr_ne_empty

theorem mem_integerText {n : Int64} {c : Char} (member : c ∈ (integerText n).toList) :
    c.isDigit = true ∨ c = '-' := by
  rcases Int.lt_or_le n.toInt 0 with negative | nonneg
  · rw [integerText_of_neg negative, String.toList_append, List.mem_append] at member
    exact member.symm.imp isDigit_of_mem_toString List.mem_singleton.1
  · rw [integerText_of_nonneg nonneg] at member
    exact .inl (isDigit_of_mem_toString member)

theorem Grammar.Binder.spaced {name : String} (binder : isBinder name = true) {rest : List Char}
    (visible : Visible rest) :
    Binder name (name.toList ++ ' ' :: rest) rest ∧ Visible (name.toList ++ ' ' :: rest) := by
  rw [isBinder, Bool.or_eq_true, beq_iff_eq] at binder
  rcases binder with identifier | rfl
  · have word := Word.spaced name (inside_of_isIdentifier identifier) visible
    exact ⟨.inl ⟨identifier, word⟩, word.visible (ne_of_isIdentifier identifier rfl)⟩
  · exact ⟨.inr ⟨rfl, Symbol.spaced "." visible⟩, visible_cons rfl _⟩

namespace Grammar

variable {input rest : List Char} {j k : Nat} {e : Expr}

theorem Phrase.atLeast (h : Phrase j input e rest) (le : k ≤ j) : Phrase k input e rest := by
  induction le with
  | refl => exact h
  | step _ ih => exact ih h.weaken

theorem Phrase.form (h : Phrase k input e rest) : Phrase 0 input e rest := h.atLeast (Nat.zero_le k)

theorem phrase_textAt (bare : ∀ {rest}, Boundary rest →
      Phrase e.strength (e.text.toList ++ rest) e (skip rest))
    (place : k ≤ 6) (boundary : Boundary rest) :
    Phrase k ((e.textAt k).toList ++ rest) e (skip rest) := by
  by_cases strong : k ≤ e.strength
  · rw [Expr.textAt_of_le strong]
    exact (bare boundary).atLeast strong
  · have inner := (bare (boundary_cons (c := ')') rfl rest)).form
    have opening := Symbol.tight "(" inner.visible
    have whole := Phrase.parenthesized opening inner (Symbol.append ")" rest)
    rw [Expr.textAt_of_lt (Nat.lt_of_not_le strong)]
    simpa using whole.atLeast place

theorem Phrase.spaced {text : String}
    (bare : ∀ {rest}, Boundary rest → Phrase k (text.toList ++ rest) e (skip rest))
    (visible : Visible rest) : Phrase k (text.toList ++ ' ' :: rest) e rest := by
  have phrase := bare (boundary_cons (c := ' ') rfl rest)
  rwa [skip_space, visible] at phrase

theorem integerText_tokens (n : Int64) (boundary : Boundary rest) :
    (¬n.toInt < 0 ∧ ∃ digits m, Numeral digits m ∧ int64? m = some n ∧
      Word digits ((integerText n).toList ++ rest) (skip rest)) ∨
    (n.toInt < 0 ∧ ∃ digits m, Numeral digits m ∧ int64? (-m) = some n ∧
      ∃ after, (integerText n).toList ++ rest = '-' :: after ∧ Word digits after (skip rest)) := by
  have low := n.minValue_le_toInt
  have high := n.toInt_le
  have least : Int64.minValue.toInt = -9223372036854775808 := by decide
  have greatest : Int64.maxValue.toInt = 9223372036854775807 := by decide
  have word {m : Nat} (numeral : Numeral (toString m) m) :
      Word (toString m) ((toString m).toList ++ rest) (skip rest) :=
    Word.append _ numeral.inside boundary
  by_cases negative : n.toInt < 0
  · have numeral := numeral_toString (n := (-n.toInt).toNat) (by unfold maxWord; omega)
    have fits : int64? (-((-n.toInt).toNat : Int)) = some n := int64?_eq_some_iff.2 (by omega)
    refine .inr ⟨negative, _, _, numeral, fits, _, ?_, word numeral⟩
    rw [integerText_of_neg negative, String.toList_append, List.append_assoc]
    rfl
  · have numeral := numeral_toString (n := n.toInt.toNat) (by unfold maxWord; omega)
    have fits : int64? (n.toInt.toNat : Int) = some n := int64?_eq_some_iff.2 (by omega)
    refine .inl ⟨negative, _, _, numeral, fits, ?_⟩
    rw [integerText_of_nonneg (Int.not_lt.1 negative)]
    exact word numeral

theorem phrase_int (n : Int64) (boundary : Boundary rest) :
    Phrase (Expr.int n).strength ((integerText n).toList ++ rest) (.int n) (skip rest) := by
  rcases integerText_tokens n boundary with
    ⟨nonneg, _, _, numeral, fits, word⟩ | ⟨negative, _, _, numeral, fits, _, spelled, word⟩
  · rw [Expr.strength, if_neg nonneg]
    exact .number numeral word fits
  · rw [Expr.strength, if_pos negative, spelled]
    exact .negative numeral word fits

theorem function_tokens {param : String} (named : isBinder param = true) (visible : Visible rest) :
    ∃ a b, Word "fun" ("fun ".toList ++ (param.toList ++ (" -> ".toList ++ rest))) a ∧
      Binder param a b ∧ Symbol "->" b rest := by
  have arrow := Symbol.spaced "->" visible
  obtain ⟨binder, shown⟩ := Binder.spaced named (arrow.visible rfl rfl)
  exact ⟨_, _, Word.spaced "fun" rfl shown, binder, arrow⟩

end Grammar

theorem Expr.phrase_text {e : Expr} (wellFormed : e.WellFormed) {rest : List Char}
    (boundary : Boundary rest) : Phrase e.strength (e.text.toList ++ rest) e (skip rest) := by
  -- The tokens of each form are put together from the last to the first, since a token is followed
  -- by what the next one begins with.
  induction e generalizing rest with
  | int n => exact phrase_int n boundary
  | bool b =>
    have inside : (booleanText b).toList.all isIdentifierChar = true := by cases b <;> rfl
    exact .bool b (Word.append (booleanText b) inside boundary)
  | error => exact .error (Word.append "error" rfl boundary)
  | var name =>
    exact .var wellFormed (Word.append name (inside_of_isIdentifier wellFormed) boundary)
  | index i =>
    obtain ⟨positive, fits⟩ := wellFormed
    have numeral := numeral_toString fits
    change Phrase 6 (("#" ++ toString i).toList ++ rest) (.index i) (skip rest)
    rw [String.toList_append, List.append_assoc]
    exact .index numeral (Word.append (toString i) numeral.inside boundary) positive fits
  | binary op left right ihl ihr =>
    have place : op.strength + 1 ≤ 6 := by cases op <;> decide
    have second := phrase_textAt (ihr wellFormed.2) place boundary
    have sign := Symbol.spaced op.symbol second.visible
    obtain ⟨c, spelled, -, nonblank, -⟩ := exists_sign op
    have first := Phrase.spaced (phrase_textAt (ihl wellFormed.1) (Nat.le_of_succ_le place))
      (sign.visible spelled nonblank)
    have whole := Phrase.binary op first sign second
    rw [text_binary]
    simp only [String.toList_append, List.append_assoc]
    exact whole
  | app function argument ihf iha =>
    have second := phrase_textAt (k := 6) (iha wellFormed.2) (by decide) boundary
    have first := Phrase.spaced (phrase_textAt (k := 4) (ihf wellFormed.1) (by decide))
      second.visible
    rw [text_app]
    simp only [String.toList_append, List.append_assoc]
    exact Phrase.app first second
  | ite condition thenBranch elseBranch ihc iht ihe =>
    obtain ⟨wfc, wft, wfe⟩ := wellFormed
    have no := (ihe wfe boundary).form
    have third := Word.spaced "else" rfl no.visible
    have yes := Phrase.spaced (fun h => (iht wft h).form) (third.visible (by decide))
    have second := Word.spaced "then" rfl yes.visible
    have test := Phrase.spaced (fun h => (ihc wfc h).form) (second.visible (by decide))
    have first := Word.spaced "if" rfl test.visible
    rw [text_ite]
    simp only [String.toList_append, List.append_assoc]
    exact Phrase.ite first test second yes third no
  | letIn name bound body ihb ihr =>
    obtain ⟨named, wfb, wfr⟩ := wellFormed
    have outer := (ihr wfr boundary).form
    have second := Word.spaced "in" rfl outer.visible
    have inner := Phrase.spaced (fun h => (ihb wfb h).form) (second.visible (by decide))
    have equals := Symbol.spaced "=" inner.visible
    obtain ⟨binder, visible⟩ := Binder.spaced named (equals.visible rfl rfl)
    have first := Word.spaced "let" rfl visible
    rw [text_letIn]
    simp only [String.toList_append, List.append_assoc]
    exact Phrase.letIn first binder equals inner second outer
  | letRec name bound body ihb ihr =>
    obtain ⟨named, wfb, wfr⟩ := wellFormed
    have outer := (ihr wfr boundary).form
    have third := Word.spaced "in" rfl outer.visible
    have inner := Phrase.spaced (fun h => (ihb wfb h).form) (third.visible (by decide))
    have equals := Symbol.spaced "=" inner.visible
    obtain ⟨binder, visible⟩ := Binder.spaced named (equals.visible rfl rfl)
    have second := Word.spaced "rec" rfl visible
    have first := Word.spaced "let" rfl (second.visible (by decide))
    rw [text_letRec]
    simp only [String.toList_append, List.append_assoc]
    exact Phrase.letRec first second binder equals inner third outer
  | fn param body ih =>
    obtain ⟨named, wellFormed⟩ := wellFormed
    have inner := (ih wellFormed boundary).form
    obtain ⟨a, b, keyword, binder, arrow⟩ := function_tokens named inner.visible
    rw [text_fn]
    simp only [String.toList_append, List.append_assoc]
    exact Phrase.fn keyword binder arrow inner

theorem readAll_success {α : Type} {parser : Parser α} {source : String} {result : α}
    (nonempty : source.toList ≠ []) (visible : Visible source.toList)
    (read : parser source.toList = .success result []) : readAll parser source = .ok result := by
  have start : source.toList.dropWhile isBlank = source.toList := visible
  rw [readAll_eq_ok_iff, start]
  exact ⟨nonempty, read⟩

theorem Parser.Takes.nonempty {α : Type} {p : Parser α} (takes : p.Takes 1)
    {input rest : List Char} {result : α} (read : p input = .success result rest) :
    input ≠ [] := by
  rintro rfl
  cases (takes.success read).2

theorem boundary_nil : Boundary [] := by
  rintro c ⟨⟩

theorem Expr.parse_text {e : Expr} (wellFormed : e.WellFormed) : Expr.parse e.text = .ok e := by
  have phrase := (Expr.phrase_text wellFormed boundary_nil).form
  rw [List.append_nil] at phrase
  have read := phrase.read (ends_nil 1)
  exact readAll_success (expression_takes.nonempty read) phrase.visible read

/-- A well-formed expression in writing is read back. -/
theorem parse_expr_text {e : Expr} (wellFormed : e.WellFormed) : Expr.parse e.text = .ok e :=
  e.parse_text wellFormed

theorem parse_expr_text_unnamed :
    Expr.parse "let rec . = fun . -> -1 - (#2 (-1) - #1) in #1 true" =
      .ok (.letRec "." (.fn "." (.binary .minus (.int (-1))
        (.binary .minus (.app (.index 2) (.int (-1))) (.index 1))))
        (.app (.index 1) (.bool true))) :=
  parse_expr_text (e := .letRec "." (.fn "." (.binary .minus (.int (-1))
    (.binary .minus (.app (.index 2) (.int (-1))) (.index 1)))) (.app (.index 1) (.bool true)))
    (by decide)

end ErrorML
