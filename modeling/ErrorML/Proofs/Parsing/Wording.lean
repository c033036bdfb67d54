import ErrorML.Proofs.Parsing.Summary

namespace ErrorML

variable {α β : Type}

theorem append_ne_empty {front : String} (nonempty : front ≠ "") (back : String) :
    front ++ back ≠ "" := by
  intro empty
  exact nonempty (String.append_eq_empty_iff.1 empty).1

namespace ParseError

def Worded (error : ParseError) : Prop := ∀ leaf ∈ error.leaves, leaf.1.message ≠ ""

theorem Worded.expectations {error : ParseError} (h : error.Worded) :
    ∀ wording ∈ error.expectations, wording ≠ "" := by
  intro wording member
  obtain ⟨leaf, inside, -, rfl⟩ := mem_expectations.1 member
  exact h leaf inside

theorem worded_leaf {expectation : Expectation} (nonempty : expectation.message ≠ "")
    (remaining : Nat) : (leaf expectation remaining).Worded := by
  intro leaf member
  rw [leaves_leaf, List.mem_singleton] at member
  rw [member]
  exact nonempty

theorem worded_alternatives {errors : List ParseError} (h : ∀ error ∈ errors, error.Worded) :
    (alternatives errors).Worded := by
  intro leaf member
  rw [leaves_alternatives] at member
  obtain ⟨error, cause, inside⟩ := mem_leavesOf.1 member
  exact h error cause leaf inside

end ParseError

structure Parser.Reports (p : Parser α) : Prop where
  rewinds : p.Rewinds
  worded : ∀ {input error rest}, p input = .failure error rest → error.Worded

structure Sequence.Reports (s : Sequence α) : Prop where
  rewinds : s.Rewinds
  worded : ∀ {input error}, s.run input = .error error → error.Worded

namespace Sequence

theorem of_reports (value : α) : (of value).Reports where
  rewinds := of_rewinds value
  worded := by
    intro input error run
    cases run

theorem Reports.next {s : Sequence (α → β)} {p : Parser α} (first : s.Reports)
    (second : p.Reports) : (s.next p).Reports where
  rewinds := first.rewinds.next second.rewinds
  worded := by
    intro input error run
    obtain before | ⟨f, middle, cause, left, -, inner, rfl⟩ := error_of_next run
    · exact first.worded before
    · unfold ParseError.Worded
      rw [ParseError.leaves_element]
      exact second.worded inner

theorem Reports.parser {s : Sequence α} (h : s.Reports) : s.parser.Reports where
  rewinds := h.rewinds.parser
  worded := by
    intro input error rest run
    exact h.worded (error_of_failure run)

end Sequence

namespace Parser

variable {p : Parser α} {q : Parser β}

theorem literal_reports (text : String) : (literal text).Reports where
  rewinds := literal_rewinds text
  worded := by
    intro input error rest run
    unfold literal at run
    split at run
    · cases run
    · cases run
      exact ParseError.worded_leaf (append_ne_empty (append_ne_empty (by decide) text) _) _

theorem takeWhile_reports (pred : Char → Bool) : (takeWhile pred).Reports where
  rewinds := takeWhile_rewinds pred
  worded := by
    intro input error rest run
    cases run

theorem takeBetween_reports (min max : Nat) (pred : Char → Bool) :
    (takeBetween min max pred).Reports where
  rewinds := takeBetween_rewinds min max pred
  worded := by
    intro input error rest run
    rw [takeBetween_eq] at run
    split at run
    · cases run
      refine ParseError.worded_leaf ?_ _
      exact append_ne_empty (append_ne_empty (append_ne_empty (by decide) _) _) _
    · cases run

theorem Reports.map (h : p.Reports) (f : α → β) : (p.map f).Reports where
  rewinds := h.rewinds.map f
  worded := by
    intro input error rest run
    exact h.worded (failure_of_map run)

theorem Reports.mapOrRefuse {f : α → Except String β} (h : p.Reports)
    (reasons : ∀ {value reason}, f value = .error reason → reason ≠ "") :
    (p.mapOrRefuse f).Reports where
  rewinds := h.rewinds.mapOrRefuse f
  worded := by
    intro input error rest run
    obtain inner | ⟨value, reason, refused, rfl⟩ := failure_of_mapOrRefuse run
    · exact h.worded inner
    · exact ParseError.worded_leaf (reasons refused) _

theorem firstOf_reports {ps : List (Parser α)} (nonempty : ps ≠ []) (h : ∀ p ∈ ps, p.Reports) :
    (firstOf ps).Reports where
  rewinds := firstOf_rewinds nonempty fun p member => (h p member).rewinds
  worded := by
    intro input error rest run
    obtain ⟨errors, rfl, -, each⟩ := failure_of_firstOf run
    apply ParseError.worded_alternatives
    intro cause member
    obtain ⟨p, tried, left, inner⟩ := each cause member
    exact (h p tried).worded inner

theorem Reports.optional (h : p.Reports) : p.optional.Reports where
  rewinds := h.rewinds.optional
  worded := by
    intro input error rest run
    exact absurd run (optional_ne_failure p)

theorem Reports.many (h : p.Reports) : (many p).Reports where
  rewinds := h.rewinds.many
  worded := by
    intro input error rest run
    cases run

theorem Reports.thenSkip (first : p.Reports) (second : q.Reports) : (p.thenSkip q).Reports :=
  ((Sequence.of_reports _).next first |>.next second).parser

end Parser

end ErrorML
