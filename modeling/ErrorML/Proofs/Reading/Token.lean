import Mathlib.Data.List.DropRight
import ErrorML.Grammar.Token

namespace ErrorML.Grammar

open ErrorML.Parser ErrorML.Sequence

/-! ## Tokens -/

def skip (input : List Char) : List Char := input.dropWhile isBlank

def leadingWord (input : List Char) : String := String.ofList (input.takeWhile isIdentifierChar)

def Boundary (rest : List Char) : Prop := ∀ c ∈ rest.head?, isIdentifierChar c = false

def Visible (input : List Char) : Prop := skip input = input

def Word (word : String) (input rest : List Char) : Prop :=
  leadingWord input = word ∧ skip (input.dropWhile isIdentifierChar) = rest

def Symbol (text : String) (input rest : List Char) : Prop :=
  ∃ after, input = text.toList ++ after ∧ skip after = rest

def Binder (name : String) (input rest : List Char) : Prop :=
  (isIdentifier name = true ∧ Word name input rest) ∨
    (name = anonymousBinder ∧ Symbol anonymousBinder input rest)

/-- Decimal digits for a number, no more of them than a word of the machine counts. -/
structure Numeral (digits : String) (n : Nat) : Prop where
  nonempty : digits ≠ ""
  digit : ∀ c ∈ digits.toList, c.isDigit
  short : digits.toList.length ≤ maxWord
  number : readDigits digits.toList = n

variable {α β : Type} {word text digits : String} {input rest : List Char} {n : Nat}

/-! ## Characters -/

theorem isIdentifierChar_of_isDigit {c : Char} (digit : c.isDigit = true) :
    isIdentifierChar c = true := by
  have bounds := digit
  simp only [Char.isDigit, Bool.and_eq_true, decide_eq_true_eq] at bounds
  have small : c.toNat < 128 := by
    have upper : c.val ≤ 57 := bounds.2
    have : c.toNat ≤ 57 := UInt32.le_iff_toNat_le.1 upper
    omega
  rw [isIdentifierChar_of_ascii small, Char.isAlphanum, digit]
  simp

theorem isDigit_eq_false {c : Char} (outside : isIdentifierChar c = false) : c.isDigit = false := by
  cases digit : c.isDigit with
  | false => rfl
  | true =>
    rw [isIdentifierChar_of_isDigit digit] at outside
    cases outside

theorem isBlank_of_isIdentifierChar {c : Char} (inside : isIdentifierChar c = true) :
    isBlank c = false := by
  cases blank : isBlank c with
  | false => rfl
  | true =>
    simp only [isBlank, Bool.or_eq_true, beq_iff_eq] at blank
    rcases blank with ((rfl | rfl) | rfl) | rfl <;> exact absurd inside (by decide)

theorem inside_of_isIdentifier {name : String} (identifier : isIdentifier name = true) :
    name.toList.all isIdentifierChar = true := by
  unfold isIdentifier at identifier
  split at identifier
  · cases identifier
  · rename_i c more spelled
    simp only [Bool.and_eq_true] at identifier
    rw [spelled]
    exact identifier.1.2

/-! ## Words and symbols at the front -/

@[simp] theorem skip_nil : skip [] = [] := rfl

@[simp] theorem skip_space (rest : List Char) : skip (' ' :: rest) = skip rest := rfl

theorem visible_skip (input : List Char) : Visible (skip input) :=
  List.dropWhile_idempotent isBlank input

theorem head?_dropWhile (pred : Char → Bool) (input : List Char) :
    ∀ c ∈ (input.dropWhile pred).head?, pred c = false := by
  intro c first
  have outside := List.head?_dropWhile_not pred input
  rw [Option.mem_def.1 first] at outside
  exact outside

theorem Visible.head? (visible : Visible input) : ∀ c ∈ input.head?, isBlank c = false := by
  rw [← visible]
  exact head?_dropWhile isBlank input

theorem skip_cons {c : Char} (visible : isBlank c = false) (rest : List Char) :
    skip (c :: rest) = c :: rest := by
  simp [skip, visible]

theorem Word.append (word : String) (inside : word.toList.all isIdentifierChar = true)
    (boundary : Boundary rest) : Word word (word.toList ++ rest) (skip rest) := by
  have run := takeWhile_append (List.all_eq_true.1 inside) boundary
  simp only [takeWhile, Parsed.success, Parsed.mk.injEq, Except.ok.injEq] at run
  exact ⟨by rw [leadingWord, run.1, String.ofList_toList], by rw [run.2]⟩

theorem Symbol.append (text : String) (rest : List Char) :
    Symbol text (text.toList ++ rest) (skip rest) :=
  ⟨rest, rfl, rfl⟩

theorem boundary_cons {c : Char} (outside : isIdentifierChar c = false) (rest : List Char) :
    Boundary (c :: rest) := by
  rintro d ⟨⟩
  exact outside

theorem visible_cons {c : Char} (nonblank : isBlank c = false) (rest : List Char) :
    Visible (c :: rest) := skip_cons nonblank rest

theorem Word.spaced (word : String) (inside : word.toList.all isIdentifierChar = true)
    (visible : Visible rest) : Word word (word.toList ++ ' ' :: rest) rest := by
  have read := Word.append word inside (boundary_cons (c := ' ') rfl rest)
  rwa [skip_space, visible] at read

theorem Symbol.tight (text : String) (visible : Visible rest) :
    Symbol text (text.toList ++ rest) rest := by
  have read := Symbol.append text rest
  rwa [visible] at read

theorem Symbol.visible (h : Symbol text input rest) {c : Char} {more : List Char}
    (spelled : text.toList = c :: more) (nonblank : isBlank c = false) : Visible input := by
  obtain ⟨after, rfl, -⟩ := h
  rw [spelled]
  exact visible_cons nonblank (more ++ after)

theorem Symbol.spaced (text : String) (visible : Visible rest) :
    Symbol text (text.toList ++ ' ' :: rest) rest := by
  have read := Symbol.append text (' ' :: rest)
  rwa [skip_space, visible] at read

theorem Word.toList (h : Word word input rest) :
    input.takeWhile isIdentifierChar = word.toList := by
  rw [← h.1, leadingWord, String.toList_ofList]

theorem Word.head (h : Word word input rest) {c : Char} {more : List Char}
    (spelled : word.toList = c :: more) : input.head? = some c ∧ isIdentifierChar c = true := by
  have run := h.toList
  rw [spelled] at run
  cases input with
  | nil => cases run
  | cons d input =>
    rw [List.takeWhile_cons] at run
    split at run
    · rename_i inside
      cases run
      exact ⟨rfl, inside⟩
    · cases run

theorem Word.exists_head (h : Word word input rest) (nonempty : word ≠ "") :
    ∃ c, input.head? = some c ∧ isIdentifierChar c = true := by
  cases spelled : word.toList with
  | nil => exact absurd (String.toList_eq_nil_iff.1 spelled) nonempty
  | cons c more => exact ⟨c, h.head spelled⟩

theorem Word.visible (h : Word word input rest) (nonempty : word ≠ "") : Visible input := by
  obtain ⟨c, first, inside⟩ := h.exists_head nonempty
  cases input with
  | nil => cases first
  | cons d input =>
    cases first
    exact visible_cons (isBlank_of_isIdentifierChar inside) input

theorem leadingWord_cons {c : Char} (outside : isIdentifierChar c = false) (rest : List Char) :
    leadingWord (c :: rest) = "" := by
  simp [leadingWord, outside]

/-! ## Reading words and symbols -/

theorem lexeme_success {p : Parser α} {value : α} (h : p input = .success value rest) :
    lexeme p input = .success value (skip rest) := by
  have blanks : Parser.blanks rest = .success (rest.takeWhile isBlank) (skip rest) := rfl
  exact ((Runs.of (fun value _ => value) input).next h |>.next blanks).parser

theorem lexeme_fails {p : Parser α} (h : p.Fails input) : (lexeme p).Fails input :=
  ((Runs.of _ input).stops h |>.next _).parser

theorem readToken_success {read : α → Except TokenError β} {p : Parser α} {value : α} {result : β}
    (h : p input = .success value rest) (accepted : read value = .ok result) :
    readToken read p input = .success result rest :=
  mapOrRefuse_success h (by rw [accepted]; rfl)

theorem symbol_reads (h : Symbol text input rest) :
    symbol text input = .success text.toList rest := by
  obtain ⟨after, rfl, rfl⟩ := h
  exact lexeme_success (literal_append text after)

theorem symbol_fails {c : Char} {more : List Char} (spelled : text.toList = c :: more)
    (other : input.head? ≠ some c) : (symbol text).Fails input :=
  lexeme_fails (literal_fails spelled other)

theorem keyword_reads (h : Word word input rest) : keyword word input = .success () rest := by
  obtain ⟨run, after⟩ := h
  rw [← after]
  exact lexeme_success (mapOrRefuse_success rfl (if_pos run))

theorem keyword_fails (other : leadingWord input ≠ word) : (keyword word).Fails input :=
  lexeme_fails ⟨_, _, mapOrRefuse_refused rfl (if_neg other)⟩

theorem run_inside (input : List Char) :
    ∀ c ∈ input.takeWhile isIdentifierChar, isIdentifierChar c :=
  List.all_eq_true.1 List.all_takeWhile

theorem identifier_reads (identifier : isIdentifier word = true) (h : Word word input rest) :
    Grammar.identifier input = .success word rest := by
  have read := (readIdentifier_eq_ok_iff (run_inside input)).2 ⟨h.toList.symm, identifier⟩
  rw [← h.2]
  exact lexeme_success (readToken_success rfl read)

theorem identifier_fails (other : isIdentifier (leadingWord input) = false) :
    identifier.Fails input := by
  apply lexeme_fails
  cases read : readIdentifier (input.takeWhile isIdentifierChar) with
  | ok name =>
    obtain ⟨spelled, identifier⟩ := (readIdentifier_eq_ok_iff (run_inside input)).1 read
    rw [leadingWord, ← spelled, String.ofList_toList, identifier] at other
    cases other
  | error reason => exact ⟨_, _, mapOrRefuse_refused rfl (by rw [read]; rfl)⟩

theorem binder_reads (h : Binder word input rest) : binder input = .success word rest := by
  rcases h with ⟨identifier, h⟩ | ⟨rfl, h⟩
  · exact firstOf_success _ (identifier_reads identifier h)
  · have unnamed : leadingWord input = "" := by
      obtain ⟨after, rfl, -⟩ := h
      exact leadingWord_cons (c := '.') rfl after
    apply firstOf_of_fails (identifier_fails (by rw [unnamed]; rfl))
    exact firstOf_success _ (map_success _ (symbol_reads h))

theorem boolean_reads {b : Bool} (h : Word (if b then "true" else "false") input rest) :
    boolean input = .success b rest := by
  cases b with
  | true => exact firstOf_success _ (map_success _ (keyword_reads h))
  | false =>
    have other : leadingWord input ≠ "true" := by
      rw [h.1]
      decide
    apply firstOf_of_fails ((keyword_fails other).map _)
    exact firstOf_success _ (map_success _ (keyword_reads h))

theorem boolean_fails (other : leadingWord input ≠ "true" ∧ leadingWord input ≠ "false") :
    boolean.Fails input := by
  apply firstOf_fails
  intro p member
  simp only [List.mem_cons, List.not_mem_nil, or_false] at member
  rcases member with rfl | rfl
  · exact (keyword_fails other.1).map _
  · exact (keyword_fails other.2).map _

/-! ## Reading numbers -/

theorem sign_success (max : Nat) (unsigned : input.head? ≠ some '-') :
    takeBetween 0 max (· == '-') input = .success [] input := by
  have none : input.takeWhile (· == '-') = [] := by
    cases input with
    | nil => rfl
    | cons c input =>
      have different : c ≠ '-' := fun same => unsigned (congrArg some same)
      simp [different]
  have zero : Nat.min 0 max = 0 := Nat.zero_min max
  rw [takeBetween_eq, none, List.length_nil, zero, if_neg (Nat.not_lt_zero 0), List.take_zero,
    List.drop_zero]

theorem boundary_dropWhile (input : List Char) : Boundary (input.dropWhile isIdentifierChar) :=
  head?_dropWhile isIdentifierChar input

theorem Numeral.digits_reads (numeral : Numeral digits n) (h : Word digits input rest) :
    ∃ after, Grammar.digits input = .success digits.toList after ∧
      takeWhile isIdentifierChar after = .success [] after ∧ skip after = rest := by
  have boundary := boundary_dropWhile input
  have nothing : ∀ c ∈ ([] : List Char), isIdentifierChar c = true := by simp
  refine ⟨input.dropWhile isIdentifierChar, ?_, takeWhile_append nothing boundary, h.2⟩
  have whole := List.takeWhile_append_dropWhile (p := isIdentifierChar) (l := input)
  rw [h.toList] at whole
  have positive := List.length_pos_iff.2 fun empty =>
    numeral.nonempty (String.toList_eq_nil_iff.1 empty)
  have outside : ∀ c ∈ (input.dropWhile isIdentifierChar).head?, c.isDigit = false :=
    fun c first => isDigit_eq_false (boundary c first)
  have read := takeBetween_append numeral.digit outside positive numeral.short
  rwa [whole] at read

theorem Numeral.inside (numeral : Numeral digits n) :
    digits.toList.all isIdentifierChar = true :=
  List.all_eq_true.2 fun c member => isIdentifierChar_of_isDigit (numeral.digit c member)

theorem Numeral.head (numeral : Numeral digits n) (h : Word digits input rest) :
    ∃ c, input.head? = some c ∧ c.isDigit = true := by
  cases spelled : digits.toList with
  | nil => exact absurd (String.toList_eq_nil_iff.1 spelled) numeral.nonempty
  | cons c more =>
    have digit := numeral.digit c (by rw [spelled]; exact .head _)
    exact ⟨c, (h.head spelled).1, digit⟩

theorem integer_reads {v : Int64} (signed : Bool) (numeral : Numeral digits n)
    (h : Word digits input rest) (fits : int64? n = some v) :
    integer signed input = .success v rest := by
  obtain ⟨c, first, digit⟩ := numeral.head h
  have unsigned : input.head? ≠ some '-' := by
    rw [first]
    rintro ⟨⟩
    exact absurd digit (by decide)
  obtain ⟨after, digits, tail, rfl⟩ := numeral.digits_reads h
  have parts := (Runs.of (fun sign digits tail => (sign, digits, tail)) input).next
    (sign_success (if signed then 1 else 0) unsigned) |>.next digits |>.next tail
  apply readToken_success (lexeme_success parts.parser)
  simp [readInteger, numeral.number, fits]

theorem negative_reads {v : Int64} (numeral : Numeral digits n) (h : Word digits input rest)
    (fits : int64? (-n) = some v) : integer true ('-' :: input) = .success v rest := by
  obtain ⟨c, first, digit⟩ := numeral.head h
  have outside : ∀ d ∈ input.head?, (d == '-') = false := by
    intro d member
    rw [first] at member
    cases member
    cases same : c == '-' with
    | false => rfl
    | true =>
      rw [beq_iff_eq.1 same] at digit
      exact absurd digit (by decide)
  have dash : ∀ c ∈ ['-'], (c == '-') = true := by simp
  have sign : takeBetween 0 1 (· == '-') ('-' :: input) = .success ['-'] input :=
    takeBetween_append dash outside (by decide) (by decide)
  obtain ⟨after, digits, tail, rfl⟩ := numeral.digits_reads h
  have parts := (Runs.of (fun sign digits tail => (sign, digits, tail)) ('-' :: input)).next sign
    |>.next digits |>.next tail
  apply readToken_success (lexeme_success parts.parser)
  simp [readInteger, numeral.number, fits]

theorem integer_fails {signed : Bool} (digit : ∀ c ∈ input.head?, c.isDigit = false)
    (sign : signed = true → input.head? ≠ some '-') : (integer signed).Fails input := by
  have unsigned : takeBetween 0 (if signed then 1 else 0) (· == '-') input = .success [] input := by
    cases signed with
    | true => exact sign_success 1 (sign rfl)
    | false =>
      have zero : Nat.min (input.takeWhile (· == '-')).length 0 = 0 := Nat.min_zero _
      simp only [Bool.false_eq_true, if_false]
      rw [takeBetween_eq, zero, if_neg (Nat.not_lt_zero 0), List.take_zero, List.drop_zero]
  have missing : digits.Fails input := takeBetween_fails digit (by decide)
  apply Fails.mapOrRefuse
  apply lexeme_fails
  exact ((Runs.of _ input).next unsigned |>.stops missing |>.next _).parser

theorem index_reads (numeral : Numeral digits n) (h : Word digits input rest) (positive : 1 ≤ n)
    (fits : n ≤ maxWord) : index ('#' :: input) = .success n rest := by
  have sharp : literal "#" ('#' :: input) = .success ['#'] input := literal_append "#" input
  obtain ⟨after, digits, tail, rfl⟩ := numeral.digits_reads h
  have parts := (Runs.of (fun _ digits tail => (digits, tail)) ('#' :: input)).next sharp
    |>.next digits |>.next tail
  apply readToken_success (lexeme_success parts.parser)
  have nonzero : n ≠ 0 := by omega
  simp [readIndex, numeral.number, nonzero, Nat.not_lt.2 fits]

theorem index_fails (other : input.head? ≠ some '#') : index.Fails input := by
  have sharp : (literal "#").Fails input := literal_fails rfl other
  apply Fails.mapOrRefuse
  apply lexeme_fails
  exact ((Runs.of _ input).stops sharp |>.next _ |>.next _).parser

/-! ## First characters -/

theorem Word.starts (h : Word word input rest) {c : Char} {more : List Char}
    (spelled : word.toList = c :: more) {d : Char} (outside : isIdentifierChar d = false) :
    input.head? ≠ some d := by
  obtain ⟨first, inside⟩ := h.head spelled
  rw [first]
  rintro ⟨⟩
  rw [outside] at inside
  cases inside

theorem Word.integer_fails (h : Word word input rest) {c : Char} {more : List Char}
    (spelled : word.toList = c :: more) (digit : c.isDigit = false) (signed : Bool) :
    (integer signed).Fails input := by
  apply Grammar.integer_fails
  · intro d first
    rw [(h.head spelled).1] at first
    cases first
    exact digit
  · intro _
    exact h.starts spelled rfl

theorem exists_cons_of_isIdentifier {name : String} (identifier : isIdentifier name = true) :
    ∃ c more, name.toList = c :: more ∧ c.isDigit = false := by
  unfold isIdentifier at identifier
  split at identifier
  · cases identifier
  · rename_i c more spelled
    simp only [Bool.and_eq_true, Bool.not_eq_true'] at identifier
    exact ⟨c, more, spelled, identifier.1.1⟩

theorem ne_of_isIdentifier {name keyword : String} (identifier : isIdentifier name = true)
    (reserved : isIdentifier keyword = false) : name ≠ keyword := by
  rintro rfl
  rw [identifier] at reserved
  cases reserved

end ErrorML.Grammar
