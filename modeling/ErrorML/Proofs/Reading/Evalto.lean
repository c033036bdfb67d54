import ErrorML.Proofs.Reading.Judgment

namespace ErrorML

open Grammar ErrorML.Parser

namespace Grammar

variable {input rest more : List Char} {t : Token} {ts : List Token}

theorem skip_append (nonblank : skip input ≠ []) (more : List Char) :
    skip (input ++ more) = skip input ++ more := by
  unfold skip at nonblank ⊢
  rw [List.dropWhile_append, if_neg]
  simpa using nonblank

theorem Boundary.append (h : Boundary rest) (boundary : Boundary more) :
    Boundary (rest ++ more) := by
  cases rest with
  | nil => exact boundary
  | cons c rest => exact h

theorem Token.Stands.append (h : t.Stands input rest) (boundary : Boundary more) :
    t.Stands (input ++ more) (rest ++ more) := by
  obtain ⟨gap, rfl, blank, parted⟩ := h
  refine ⟨gap, by simp only [List.append_assoc], blank, ?_⟩
  rw [← List.append_assoc]
  cases t with
  | symbol => trivial
  | _ => exact Boundary.append parted boundary

theorem Token.Stands.skip (h : t.Stands input rest) : t.Stands input (skip rest) := by
  obtain ⟨gap, rfl, blank, parted⟩ := h
  obtain ⟨gap', whole, blank'⟩ := exists_gap rest
  refine ⟨gap ++ gap', by rw [List.append_assoc, ← whole], ?_, by rwa [List.append_assoc, ← whole]⟩
  intro c member
  rcases List.mem_append.1 member with first | second
  · exact blank c first
  · exact blank' c second

theorem spells_extend (some : ts ≠ []) (spells : Spells ts input rest) (boundary : Boundary more) :
    Spells ts (input ++ more) (skip (rest ++ more)) := by
  induction ts generalizing input with
  | nil => exact absurd rfl some
  | cons t us ih =>
    obtain ⟨middle, first, others⟩ := spells
    cases us with
    | nil =>
      cases others
      exact ⟨_, (first.append boundary).skip, rfl⟩
    | cons u us => exact ⟨_, first.append boundary, ih (by simp) others⟩

theorem Sentence.ne_nil {k : Nat} {e : Expr} (h : Sentence k ts e) : ts ≠ [] := by
  induction h with
  | app _ _ first _ =>
    intro empty
    exact first (List.append_eq_nil_iff.1 empty).1
  | unit _ inner => exact inner
  | _ => simp

theorem RequestSentence.ne_nil {r : Request} (h : RequestSentence ts r) : ts ≠ [] := by
  cases h with
  | bare expr => exact expr.ne_nil
  | turnstile => simp

end Grammar

/-- If a text is a request, then with `evalto` and a further text after it is a judgment on it
exactly if the further text is a value. -/
theorem parse_evalto_iff {source text : String} {r : Request} (asked : Request.parse source = .ok r)
    {j : Judgment} :
    Judgment.parse (source ++ " evalto " ++ text) = .ok j ↔
      j.request = r ∧ Value.parse text = .ok j.value := by
  have visible : skip source.toList ≠ [] := (readAll_eq_ok_iff.1 asked).1
  obtain ⟨ts, sentence, spells⟩ := parse_request_iff.1 asked
  have space := boundary_cons (c := ' ') rfl ("evalto".toList ++ ' ' :: text.toList)
  have front := spells_extend sentence.ne_nil spells space
  have start : skip (source ++ " evalto " ++ text).toList =
      skip source.toList ++ ' ' :: ("evalto".toList ++ ' ' :: text.toList) := by
    rw [← skip_append visible]
    simp only [String.toList_append, List.append_assoc]
    rfl
  have evalto := Word.append "evalto" rfl (boundary_cons (c := ' ') rfl text.toList)
  obtain ⟨shown, ends, unequal⟩ := evalto.closes
  rw [List.nil_append, skip_space, shown] at front
  have read := (request_reads sentence front shown ends unequal).1
  rw [parse_judgment_iff, parse_value_iff, start]
  constructor
  · rintro ⟨_, ⟨request, value⟩, whole⟩
    obtain ⟨c, front', d, evalto', back⟩ := spells_append.1 whole
    have evalto' := Word.of_stands (by decide) (ValueSentence.read _ value skip_nil back).2 evalto'
    obtain ⟨shown', ends', unequal'⟩ := evalto'.closes
    -- The request parser reads both requests off the same input, so they are the same.
    have read' := (request_reads request front' shown' ends' unequal').1
    obtain ⟨same, rfl⟩ := Parsed.success_inj.1 (read.symm.trans read')
    obtain rfl : skip (' ' :: text.toList) = d := evalto.2.symm.trans evalto'.2
    exact ⟨same.symm, _, value, back⟩
  · rintro ⟨rfl, us, value, back⟩
    exact ⟨_, .evalto sentence value, spells_append.2 ⟨_, front, _, evalto.stands, back⟩⟩

end ErrorML
