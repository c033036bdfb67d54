import Mathlib.Data.List.DropRight
import ErrorML.Proofs.Reading.Judgment
import ErrorML.Proofs.Recognition.Vocabulary

namespace ErrorML

open Grammar

/-- The second text is the first one with other blanks in the place of each longest run of them. -/
inductive Respaced : List Char → List Char → Prop
  | nil : Respaced [] []
  | char {c : Char} {text text' : List Char} (nonblank : isBlank c = false)
      (others : Respaced text text') : Respaced (c :: text) (c :: text')
  | run (gap gap' : List Char) {text text' : List Char} (some : gap ≠ []) (some' : gap' ≠ [])
      (blank : ∀ c ∈ gap, isBlank c = true) (blank' : ∀ c ∈ gap', isBlank c = true)
      (longest : Visible text) (others : Respaced text text') :
      Respaced (gap ++ text) (gap' ++ text')

namespace Respaced

variable {text text' input rest : List Char} {t : Token} {ts : List Token}

theorem refl : (text : List Char) → Respaced text text
  | [] => .nil
  | c :: text => by
    cases blank : isBlank c with
    | false => exact .char blank (refl text)
    | true =>
      obtain ⟨gap, whole, blanks⟩ := exists_gap text
      have run : ∀ d ∈ c :: gap, isBlank d = true := List.forall_mem_cons.2 ⟨blank, blanks⟩
      have longest : Visible (skip text) := List.dropWhile_idempotent isBlank text
      have shorter : (skip text).length ≤ text.length := List.length_dropWhile_le ..
      rw [whole]
      exact .run (c :: gap) (c :: gap) (by simp) (by simp) run run longest (refl (skip text))
termination_by text => text.length

theorem not_visible_gap {gap : List Char} (some : gap ≠ []) (blank : ∀ c ∈ gap, isBlank c = true)
    (longest : Visible rest) : ¬Visible (gap ++ rest) := by
  intro visible
  have same : rest = gap ++ rest := (skip_gap blank longest).symm.trans visible
  exact some (List.self_eq_append_left.1 same)

theorem of_nil (h : Respaced [] text') : text' = [] := by
  generalize empty : [] = text at h
  cases h with
  | nil => rfl
  | char => cases empty
  | run _ _ some => exact absurd (List.append_eq_nil_iff.1 empty.symm).1 some

theorem visible (h : Respaced text text') (shown : Visible text) : Visible text' := by
  cases h with
  | nil => exact skip_nil
  | char nonblank _ => exact visible_cons nonblank _
  | run _ _ some _ blank _ longest _ => exact absurd shown (not_visible_gap some blank longest)

theorem symm (h : Respaced text text') : Respaced text' text := by
  induction h with
  | nil => exact .nil
  | char nonblank _ ih => exact .char nonblank ih
  | run _ _ some some' blank blank' longest others ih =>
    exact .run _ _ some' some blank' blank (others.visible longest) ih

theorem skip (h : Respaced text text') : Respaced (skip text) (skip text') := by
  cases h with
  | nil => exact .nil
  | char nonblank others =>
    rw [skip_cons nonblank, skip_cons nonblank]
    exact .char nonblank others
  | run _ _ _ _ blank blank' longest others =>
    rw [skip_gap blank longest, skip_gap blank' (others.visible longest)]
    exact others

theorem all_isWhiteSpace_eq (h : Respaced text text') :
    text.all isWhiteSpace = text'.all isWhiteSpace := by
  have white {gap : List Char} (blank : ∀ c ∈ gap, isBlank c = true) :
      gap.all isWhiteSpace = true :=
    List.all_eq_true.2 fun c member => isWhiteSpace_of_isBlank (blank c member)
  induction h with
  | nil => rfl
  | char _ _ ih => rw [List.all_cons, List.all_cons, ih]
  | run _ _ _ _ blank blank' _ _ ih =>
    rw [List.all_append, List.all_append, white blank, white blank', ih]

theorem boundary (h : Respaced text text') (parted : Boundary text) : Boundary text' := by
  cases h with
  | nil => exact boundary_nil
  | char => exact parted
  | run _ gap' _ some' _ blank' =>
    cases gap' with
    | nil => exact absurd rfl some'
    | cons c gap' =>
      apply boundary_cons
      cases inside : isIdentifierChar c with
      | false => rfl
      | true =>
        have nonblank := isBlank_of_isIdentifierChar inside
        rw [blank' c (.head gap')] at nonblank
        cases nonblank

theorem of_append {word : List Char} (nonblank : ∀ c ∈ word, isBlank c = false)
    (h : Respaced (word ++ text) input) : ∃ text', input = word ++ text' ∧ Respaced text text' := by
  induction word generalizing input with
  | nil => exact ⟨input, rfl, h⟩
  | cons c word ih =>
    obtain ⟨first, others⟩ := List.forall_mem_cons.1 nonblank
    rw [List.cons_append] at h
    generalize whole : c :: (word ++ text) = front at h
    cases h with
    | nil => cases whole
    | char _ spaced =>
      cases whole
      obtain ⟨text', rfl, tail⟩ := ih others spaced
      exact ⟨text', rfl, tail⟩
    | run gap _ some _ blank =>
      cases gap with
      | nil => exact absurd rfl some
      | cons d gap =>
        obtain ⟨rfl, -⟩ := List.cons.inj whole
        rw [blank c (.head gap)] at first
        cases first

theorem stands (h : Respaced text text') (solid : t.Solid) (stands : t.Stands text rest)
    (visible : Visible rest) : ∃ rest', t.Stands text' rest' ∧ Respaced rest rest' := by
  obtain ⟨gap, rfl, blank, parted⟩ := stands
  obtain ⟨after, rfl, spaced⟩ := of_append solid.nonblank h
  obtain ⟨gap', whole, blank'⟩ := exists_gap after
  have others := spaced.skip
  rw [skip_gap blank visible] at others
  have parted' : t.Parted after := by
    cases t with
    | symbol => trivial
    | _ => exact spaced.boundary parted
  exact ⟨_, ⟨gap', congrArg (t.text ++ ·) whole, blank', whole ▸ parted'⟩, others⟩

theorem spells (h : Respaced text text') (solid : ∀ t ∈ ts, t.Solid)
    (spells : Spells ts text []) : Spells ts text' [] := by
  induction ts generalizing text text' with
  | nil =>
    cases spells
    exact h.of_nil
  | cons t ts ih =>
    obtain ⟨first, others⟩ := List.forall_mem_cons.1 solid
    obtain ⟨rest, stands, spells⟩ := spells
    obtain ⟨rest', stands', spaced⟩ := h.stands first stands (spells_visible others spells)
    exact ⟨rest', stands', ih spaced others spells⟩

theorem exists_spells_iff {Derives : List Token → Prop} (h : Respaced text text')
    (solid : ∀ {ts}, Derives ts → ∀ t ∈ ts, t.Solid) :
    (∃ ts, Derives ts ∧ Spells ts (Grammar.skip text) []) ↔
      ∃ ts, Derives ts ∧ Spells ts (Grammar.skip text') [] := by
  constructor
  · rintro ⟨ts, derived, written⟩
    exact ⟨ts, derived, h.skip.spells (solid derived) written⟩
  · rintro ⟨ts, derived, written⟩
    exact ⟨ts, derived, h.skip.symm.spells (solid derived) written⟩

end Respaced

/-- A text and the same text spaced differently are read alike: as the same tree, if as any. -/
theorem parse_respaced {source source' : String}
    (spaced : Respaced source.toList source'.toList) :
    (∀ e, Expr.parse source = .ok e ↔ Expr.parse source' = .ok e) ∧
      (∀ v, Value.parse source = .ok v ↔ Value.parse source' = .ok v) ∧
      (∀ env, Env.parse source = .ok env ↔ Env.parse source' = .ok env) ∧
      (∀ j, Judgment.parse source = .ok j ↔ Judgment.parse source' = .ok j) ∧
      (∀ r, Request.parse source = .ok r ↔ Request.parse source' = .ok r) := by
  refine ⟨fun e => ?_, fun v => ?_, fun env => ?_, fun j => ?_, fun r => ?_⟩
  · rw [parse_expr_iff, parse_expr_iff]
    exact spaced.exists_spells_iff fun h => solid_of_lexemes h.lexeme
  · rw [parse_value_iff, parse_value_iff]
    exact spaced.exists_spells_iff fun h => solid_of_lexemes h.lexeme
  · rw [parse_env_iff, parse_env_iff, spaced.all_isWhiteSpace_eq]
    split
    · rfl
    · exact spaced.exists_spells_iff fun h => solid_of_lexemes h.lexeme
  · rw [parse_judgment_iff, parse_judgment_iff]
    exact spaced.exists_spells_iff fun h => h.solid
  · rw [parse_request_iff, parse_request_iff]
    exact spaced.exists_spells_iff fun h => solid_of_lexemes h.lexeme

theorem parse_respaced_evalto :
    Respaced "#1 evalto\t\n-2".toList "#1  evalto -2".toList ∧
      Judgment.parse "#1 evalto\t\n-2" = .ok ⟨none, .index 1, .int (-2)⟩ ∧
      Judgment.parse "#1  evalto -2" = .ok ⟨none, .index 1, .int (-2)⟩ := by
  have blank {gap : List Char} (all : gap.all isBlank = true) : ∀ c ∈ gap, isBlank c = true :=
    List.all_eq_true.1 all
  have value : Respaced ['\t', '\n', '-', '2'] [' ', '-', '2'] :=
    .run ['\t', '\n'] [' '] (by simp) (by simp) (blank rfl) (blank rfl) rfl (.refl _)
  have spaced : Respaced "#1 evalto\t\n-2".toList "#1  evalto -2".toList :=
    .char rfl (.char rfl (.run [' '] [' ', ' '] (by simp) (by simp) (blank rfl) (blank rfl) rfl
      (.char rfl (.char rfl (.char rfl (.char rfl (.char rfl (.char rfl value))))))))
  have judgments := (parse_respaced spaced).2.2.2.1 ⟨none, .index 1, .int (-2)⟩
  have read : Judgment.parse "#1 evalto\t\n-2" = .ok ⟨none, .index 1, .int (-2)⟩ := by
    decide +kernel
  exact ⟨spaced, read, judgments.1 read⟩

end ErrorML
