import Mathlib.Data.List.DropRight
import ErrorML.Text.Position

namespace ErrorML

def IsBoundary (text : List Char) (k : Nat) : Prop :=
  ∃ front back, text = front ++ back ∧ byteLength front = k

theorem isBoundary_nil {k : Nat} : IsBoundary [] k ↔ k = 0 := by
  constructor
  · rintro ⟨front, back, whole, rfl⟩
    rw [(List.nil_eq_append_iff.1 whole).1, byteLength_nil]
  · rintro rfl
    exact ⟨[], [], rfl, rfl⟩

theorem isBoundary_cons {c : Char} {text : List Char} {k : Nat} :
    IsBoundary (c :: text) k ↔ k = 0 ∨ (c.utf8Size ≤ k ∧ IsBoundary text (k - c.utf8Size)) := by
  constructor
  · rintro ⟨front, back, whole, rfl⟩
    cases front with
    | nil => exact .inl byteLength_nil
    | cons d front =>
      obtain ⟨rfl, rfl⟩ := List.cons_eq_cons.1 whole
      rw [byteLength_cons]
      exact .inr ⟨Nat.le_add_right _ _, front, back, rfl, (Nat.add_sub_cancel_left _ _).symm⟩
  · rintro (rfl | ⟨fits, front, back, rfl, count⟩)
    · exact ⟨[], c :: text, rfl, rfl⟩
    · exact ⟨c :: front, back, rfl, by rw [byteLength_cons]; omega⟩

instance IsBoundary.decidable : (text : List Char) → (k : Nat) → Decidable (IsBoundary text k)
  | [], _ => decidable_of_iff _ isBoundary_nil.symm
  | c :: text, k =>
    have := decidable text (k - c.utf8Size)
    decidable_of_iff _ isBoundary_cons.symm

theorem IsBoundary.le {text : List Char} {k : Nat} (h : IsBoundary text k) :
    k ≤ byteLength text := by
  obtain ⟨front, back, rfl, rfl⟩ := h
  rw [byteLength_append]
  exact Nat.le_add_right _ _

theorem IsBoundary.exists_between {text : List Char} {a b : Nat} (ha : IsBoundary text a)
    (hb : IsBoundary text b) (lt : a < b) :
    ∃ front middle back, text = front ++ (middle ++ back) ∧ middle ≠ [] ∧ byteLength front = a ∧
      byteLength (front ++ middle) = b := by
  obtain ⟨front, left, whole, rfl⟩ := ha
  obtain ⟨further, back, same, rfl⟩ := hb
  have short : front <+: text := ⟨left, whole.symm⟩
  have long : further <+: text := ⟨back, same.symm⟩
  obtain ⟨middle, rfl⟩ | ⟨middle, rfl⟩ := List.prefix_or_prefix_of_prefix short long
  · refine ⟨front, middle, back, by rw [same, List.append_assoc], ?_, rfl, rfl⟩
    rintro rfl
    rw [List.append_nil] at lt
    exact Nat.lt_irrefl _ lt
  · rw [byteLength_append] at lt
    omega

namespace Position

instance : LT Position where
  lt p q := p.line < q.line ∨ (p.line = q.line ∧ p.column < q.column)

theorem lt_def {p q : Position} :
    p < q ↔ p.line < q.line ∨ (p.line = q.line ∧ p.column < q.column) := Iff.rfl

theorem lt_trans {p q r : Position} (h : p < q) (h' : q < r) : p < r := by
  rw [lt_def] at h h' ⊢
  omega

theorem lt_irrefl (p : Position) : ¬ p < p := by
  rw [lt_def]
  omega

theorem lt_advance (p : Position) (c : Char) : p < p.advance c := by
  rw [lt_def]
  unfold advance
  split
  · exact .inl (Nat.lt_succ_self p.line)
  · exact .inr ⟨rfl, Nat.lt_succ_self p.column⟩

theorem lt_foldl_advance (p : Position) {text : List Char} (nonempty : text ≠ []) :
    p < text.foldl advance p := by
  induction text generalizing p with
  | nil => exact absurd rfl nonempty
  | cons c text ih =>
    by_cases last : text = []
    · rw [last]
      exact lt_advance p c
    · exact lt_trans (lt_advance p c) (ih (p.advance c) last)

theorem foldl_advance (text : List Char) :
    text.foldl advance start =
      ⟨text.count '\n' + 1, (text.rtakeWhile (· != '\n')).length + 1⟩ := by
  -- From the last character on: only what follows the last line feed counts for the column.
  induction text using List.reverseRecOn with
  | nil => rfl
  | append_singleton text c ih =>
    rw [List.foldl_concat, ih, advance, List.count_append, List.rtakeWhile_concat]
    by_cases lineFeed : c = '\n'
    · simp [lineFeed]
    · simp [lineFeed]

theorem locateFrom_of_not_boundary (p : Position) {text : List Char} {k : Nat}
    (outside : ¬ IsBoundary text k) : p.locateFrom k text = text.foldl advance p := by
  induction text generalizing p k with
  | nil => rfl
  | cons c text ih =>
    rw [isBoundary_cons, not_or] at outside
    rw [locateFrom, if_neg outside.1]
    split
    · rename_i fits
      exact ih (p.advance c) fun boundary => outside.2 ⟨fits, boundary⟩
    · rfl

theorem locate_of_not_boundary {text : List Char} {k : Nat} (outside : ¬ IsBoundary text k) :
    locate text k = locate text (byteLength text) := by
  rw [locate_of_le (Nat.le_refl _)]
  exact locateFrom_of_not_boundary start outside

theorem locate_lt_locate {text : List Char} {a b : Nat} (ha : IsBoundary text a)
    (hb : IsBoundary text b) (lt : a < b) : locate text a < locate text b := by
  obtain ⟨front, middle, back, rfl, nonempty, rfl, rfl⟩ := ha.exists_between hb lt
  have first := locate_append front (middle ++ back)
  have second := locate_append (front ++ middle) back
  rw [List.append_assoc] at second
  rw [first, second, List.foldl_append]
  exact lt_foldl_advance _ nonempty

/-- Positions tell lines and columns as they can be counted in the text, and keep the order of the
offsets between its characters, so that no two of these share a position. An offset inside a
character or past the end has the position of the end. -/
theorem locate_faithful (text : List Char) :
    (∀ front back, text = front ++ back →
      locate text (byteLength front) =
        ⟨front.count '\n' + 1, (front.rtakeWhile (· != '\n')).length + 1⟩) ∧
      (∀ a b, IsBoundary text a → IsBoundary text b → a < b → locate text a < locate text b) ∧
      (∀ a b, IsBoundary text a → IsBoundary text b → a ≠ b → locate text a ≠ locate text b) ∧
      ∀ k, byteLength text < k ∨ ¬ IsBoundary text k →
        locate text k = locate text (byteLength text) := by
  refine ⟨?_, fun a b => locate_lt_locate, ?_, ?_⟩
  · rintro front back rfl
    rw [locate_append, foldl_advance]
  · intro a b ha hb different same
    rcases Nat.lt_or_gt_of_ne different with lt | gt
    · have before := locate_lt_locate ha hb lt
      rw [same] at before
      exact lt_irrefl _ before
    · have before := locate_lt_locate hb ha gt
      rw [same] at before
      exact lt_irrefl _ before
  · rintro k (past | outside)
    · exact locate_of_not_boundary fun boundary => absurd boundary.le (Nat.not_le.2 past)
    · exact locate_of_not_boundary outside

theorem locate_faithful_second_line :
    let text := "a\né".toList
    locate text 2 = ⟨2, 1⟩ ∧
      (IsBoundary text 2 ∧ IsBoundary text 4 ∧ locate text 2 < locate text 4 ∧
        locate text 2 ≠ locate text 4) ∧
      (¬ IsBoundary text 3 ∧ locate text 3 = ⟨2, 2⟩) ∧ byteLength text < 9 ∧
      locate text 9 = ⟨2, 2⟩ := by
  intro text
  have split : text = "a\n".toList ++ "é".toList := rfl
  have second : IsBoundary text 2 := by decide
  have last : IsBoundary text 4 := by decide
  have inside : ¬ IsBoundary text 3 := by decide
  have past : byteLength text < 9 := by decide
  obtain ⟨counted, ordered, distinct, rest⟩ := locate_faithful text
  exact ⟨counted _ _ split, ⟨second, last, ordered 2 4 second last (by decide),
    distinct 2 4 second last (by decide)⟩, ⟨inside, rest 3 (.inr inside)⟩, past,
    rest 9 (.inl past)⟩

end Position

end ErrorML
