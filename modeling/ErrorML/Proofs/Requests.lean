import Mathlib.Data.List.Basic
import ErrorML.Proofs.Reading.Evalto
import ErrorML.Proofs.Recognition.Vocabulary

namespace ErrorML

open Grammar

namespace Grammar

variable {t : Token} {ts us : List Token} {input rest front back : List Char} {space : Char}

theorem Boundary.of_append (h : Boundary (front ++ back)) : Boundary front := by
  cases front with
  | nil => exact boundary_nil
  | cons c front => exact h

theorem Token.Parted.of_append (h : t.Parted (front ++ back)) : t.Parted front := by
  cases t with
  | symbol => trivial
  | _ => exact Boundary.of_append h

theorem Token.Solid.split (solid : t.Solid) (blank : isBlank space = true)
    (stands : t.Stands (front ++ space :: back) rest) (visible : Visible rest) :
    (t.Stands front [] ∧ skip back = rest) ∨
      ∃ middle, t.Stands front middle ∧ rest = middle ++ space :: back := by
  obtain ⟨gap, whole, blanks, parted⟩ := stands
  obtain ⟨after, rfl, left⟩ :
      ∃ after, front = t.text ++ after ∧ gap ++ rest = after ++ space :: back := by
    rcases List.append_eq_append_iff.1 whole with ⟨across, text, left⟩ | ⟨after, rfl, left⟩
    · cases across with
      | nil => exact ⟨[], by simpa using text.symm, left.symm⟩
      | cons c across =>
        cases left
        have nonblank := solid.nonblank space (by simp [text])
        rw [blank] at nonblank
        cases nonblank
    · exact ⟨after, rfl, left⟩
  rcases List.append_eq_append_iff.1 left with ⟨middle, rfl, rfl⟩ | ⟨across, rfl, same⟩
  · rw [← List.append_assoc] at parted
    exact .inr ⟨middle, ⟨gap, rfl, blanks, parted.of_append⟩, rfl⟩
  · rw [List.append_assoc, ← same] at parted
    obtain ⟨before, blanks⟩ := List.forall_mem_append.1 blanks
    have stands : t.Stands (t.text ++ after) [] :=
      ⟨after, by rw [List.append_nil], before, by simpa using parted.of_append⟩
    cases across with
    | nil => exact .inr ⟨[], stands, same.symm⟩
    | cons c across =>
      cases same
      exact .inl ⟨stands, skip_gap (List.forall_mem_cons.1 blanks).2 visible⟩

theorem spells_split (blank : isBlank space = true) (solid : ∀ t ∈ ts, t.Solid)
    (spells : Spells ts (front ++ space :: back) []) :
    ∃ us vs, ts = us ++ vs ∧ Spells us front [] ∧ Spells vs (skip back) [] := by
  induction ts generalizing front with
  | nil => simp [Spells] at spells
  | cons t ts ih =>
    obtain ⟨first, others⟩ := List.forall_mem_cons.1 solid
    obtain ⟨rest, stands, spells⟩ := spells
    rcases first.split blank stands (spells_visible others spells) with
      ⟨before, rfl⟩ | ⟨middle, before, rfl⟩
    · exact ⟨[t], ts, rfl, ⟨[], before, rfl⟩, spells⟩
    · obtain ⟨us, vs, rfl, between, after⟩ := ih others spells
      exact ⟨t :: us, vs, rfl, ⟨middle, before, between⟩, after⟩

theorem spells_parts (blank : isBlank space = true) (solid : ∀ t ∈ ts, t.Solid)
    (spells : Spells ts (skip (front ++ space :: back)) []) :
    ∃ us vs, ts = us ++ vs ∧ Spells us (skip front) [] ∧ Spells vs (skip back) [] := by
  by_cases nothing : skip front = []
  · obtain ⟨gap, whole, blanks⟩ := exists_gap front
    rw [nothing, List.append_nil] at whole
    have start : skip (front ++ space :: back) = skip back := by
      rw [whole, skip, List.dropWhile_append_of_pos blanks, List.dropWhile_cons_of_pos blank]
      rfl
    rw [start] at spells
    exact ⟨[], ts, rfl, nothing, spells⟩
  · rw [skip_append nothing] at spells
    exact spells_split blank solid spells

theorem JudgmentSentence.request_spells {j : Judgment} (h : JudgmentSentence ts j)
    (blank : isBlank space = true) (evalto : Word "evalto" back rest)
    (spells : Spells ts (skip (front ++ space :: back)) []) :
    ∃ us, RequestSentence us j.request ∧ Spells us (skip front) [] := by
  obtain ⟨us, vs, parts, before, after⟩ := spells_parts blank h.solid spells
  have solid := h.solid
  rw [evalto.visible (by decide)] at after
  rw [parts] at solid
  cases vs with
  | nil =>
    obtain ⟨c, begun, -⟩ := evalto.exists_head (by decide)
    rw [after] at begun
    cases begun
  | cons t vs =>
    obtain ⟨_, stands, -⟩ := after
    have written : leadingWord back = "evalto" := evalto.1
    have same := (solid t (by simp)).eq_word stands (by rw [written]; rfl) (by decide)
    rw [written] at same
    subst same
    obtain ⟨request, value⟩ := h
    have once {ts : List Token} (lexemes : ∀ t ∈ ts, t.Lexeme) : .word "evalto" ∉ ts :=
      fun member => (lexemes _ member).ne_evalto rfl
    obtain ⟨rfl, -, -⟩ := (List.append_cons_inj_of_notMem (once request.lexeme)
      (once value.lexeme)).1 parts
    exact ⟨_, request, before⟩

end Grammar

/-- With `evalto` and a further text after it, a text is a judgment exactly if it is a request, for
what the judgment gives the value of, and the further text is that value. -/
theorem parse_judgment_iff_request {source text : String} {env : Option Env} {e : Expr}
    {v : Value} :
    Judgment.parse (source ++ " evalto " ++ text) = .ok ⟨env, e, v⟩ ↔
      Request.parse source = .ok ⟨env, e⟩ ∧ Value.parse text = .ok v := by
  have start : (source ++ " evalto " ++ text).toList =
      source.toList ++ ' ' :: ("evalto".toList ++ ' ' :: text.toList) := by
    simp only [String.toList_append, List.append_assoc]
    rfl
  constructor
  · intro parsed
    obtain ⟨ts, sentence, spells⟩ := parse_judgment_iff.1 parsed
    rw [start] at spells
    have evalto := Word.append "evalto" rfl (boundary_cons (c := ' ') rfl text.toList)
    have asked := parse_request_iff.2 (sentence.request_spells rfl evalto spells)
    exact ⟨asked, ((parse_evalto_iff asked).1 parsed).2⟩
  · rintro ⟨asked, value⟩
    exact (parse_evalto_iff asked).2 ⟨rfl, value⟩

end ErrorML
