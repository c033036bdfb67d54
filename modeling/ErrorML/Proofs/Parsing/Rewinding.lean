import ErrorML.Proofs.Parsing.Inversion

namespace ErrorML

variable {α β γ : Type}

/-! ## Leaves -/

namespace ParseError

@[simp] theorem leaves_leaf (expectation : Expectation) (remaining : Nat) :
    (leaf expectation remaining).leaves = [(expectation, remaining)] := by
  rw [leaves]

@[simp] theorem leaves_alternatives (causes : List ParseError) :
    (alternatives causes).leaves = leavesOf causes := by
  rw [leaves]

@[simp] theorem leaves_element (index : Nat) (cause : ParseError) :
    (element index cause).leaves = cause.leaves := by
  rw [leaves]

theorem mem_leavesOf {leaf : Expectation × Nat} {causes : List ParseError} :
    leaf ∈ leavesOf causes ↔ ∃ cause ∈ causes, leaf ∈ cause.leaves := by
  induction causes with
  | nil => simp [leavesOf]
  | cons cause causes ih => simp [leavesOf, ih]

theorem least?_min? (front back : List Nat) :
    least? front.min? back.min? = (front ++ back).min? := by
  induction front with
  | nil =>
    rw [List.nil_append, List.min?_nil]
    cases back.min? <;> rfl
  | cons count front ih =>
    rw [List.cons_append, List.min?_cons, List.min?_cons, ← ih]
    cases front.min? <;> cases back.min? <;> simp [least?, Nat.min_assoc]

mutual

theorem furthest?_eq : (error : ParseError) → error.furthest? = (error.leaves.map Prod.snd).min?
  | .leaf expectation remaining => by
    rw [furthest?, leaves]
    rfl
  | .alternatives causes => by
    rw [furthest?, leaves]
    exact furthestOf?_eq causes
  | .element index cause => by
    rw [furthest?, leaves]
    exact furthest?_eq cause

theorem furthestOf?_eq : (causes : List ParseError) →
    furthestOf? causes = ((leavesOf causes).map Prod.snd).min?
  | [] => by
    rw [furthestOf?, leavesOf]
    rfl
  | cause :: causes => by
    rw [furthestOf?, leavesOf, furthest?_eq cause, furthestOf?_eq causes, least?_min?,
      List.map_append]

end

/-- The tree has a leaf, and each leaf counts the bytes of an end of the input. -/
structure PointsInto (error : ParseError) (input : List Char) : Prop where
  nonempty : error.leaves ≠ []
  counts : ∀ leaf ∈ error.leaves, ∃ left, left <:+ input ∧ leaf.2 = byteLength left

theorem pointsInto_leaf (expectation : Expectation) (input : List Char) :
    (leaf expectation (byteLength input)).PointsInto input where
  nonempty := by simp
  counts := by
    intro leaf member
    rw [leaves_leaf, List.mem_singleton] at member
    exact ⟨input, List.suffix_refl input, by rw [member]⟩

theorem PointsInto.element {error : ParseError} {input middle : List Char}
    (h : error.PointsInto middle) (index : Nat) (front : middle <:+ input) :
    (ParseError.element index error).PointsInto input where
  nonempty := by
    rw [leaves_element]
    exact h.nonempty
  counts := by
    intro leaf member
    rw [leaves_element] at member
    obtain ⟨left, back, count⟩ := h.counts leaf member
    exact ⟨left, back.trans front, count⟩

theorem pointsInto_alternatives {errors : List ParseError} {input : List Char}
    (nonempty : errors ≠ []) (h : ∀ error ∈ errors, error.PointsInto input) :
    (alternatives errors).PointsInto input where
  nonempty := by
    obtain ⟨error, member⟩ := List.exists_mem_of_ne_nil errors nonempty
    obtain ⟨leaf, inside⟩ := List.exists_mem_of_ne_nil _ (h error member).nonempty
    rw [leaves_alternatives]
    exact List.ne_nil_of_mem (mem_leavesOf.2 ⟨error, member, inside⟩)
  counts := by
    intro leaf member
    rw [leaves_alternatives] at member
    obtain ⟨error, member, inside⟩ := mem_leavesOf.1 member
    exact (h error member).counts leaf inside

theorem exists_furthest {error : ParseError} (nonempty : error.leaves ≠ []) :
    ∃ leaf ∈ error.leaves, leaf.2 = error.remainingBytes := by
  have some : (error.leaves.map Prod.snd).min?.isSome := by
    simpa using nonempty
  obtain ⟨count, least⟩ := Option.isSome_iff_exists.1 some
  obtain ⟨leaf, member, rfl⟩ := List.mem_map.1 (List.min?_mem least)
  exact ⟨leaf, member, by rw [remainingBytes, furthest?_eq, least, Option.getD_some]⟩

theorem PointsInto.exists_left {error : ParseError} {input : List Char}
    (h : error.PointsInto input) :
    ∃ left, left <:+ input ∧ error.remainingBytes = byteLength left := by
  obtain ⟨leaf, member, furthest⟩ := exists_furthest h.nonempty
  obtain ⟨left, back, count⟩ := h.counts leaf member
  exact ⟨left, back, furthest.symm.trans count⟩

theorem PointsInto.remainingBytes_le {error : ParseError} {input : List Char}
    (h : error.PointsInto input) : error.remainingBytes ≤ byteLength input := by
  obtain ⟨left, ⟨front, whole⟩, count⟩ := h.exists_left
  rw [count, ← whole, byteLength_append]
  exact Nat.le_add_left _ _

end ParseError

/-! ## Combinators -/

structure Parser.Rewinds (p : Parser α) : Prop where
  takes : p.Takes 0
  points : ∀ {input error rest}, p input = .failure error rest → error.PointsInto input

structure Sequence.Rewinds (s : Sequence α) : Prop where
  takes : s.Takes 0
  points : ∀ {input error}, s.run input = .error error → error.PointsInto input

namespace Sequence

theorem of_rewinds (value : α) : (of value).Rewinds where
  takes := of_takes value
  points := by
    intro input error run
    cases run

theorem Rewinds.next {s : Sequence (α → β)} {p : Parser α} (first : s.Rewinds)
    (second : p.Rewinds) : (s.next p).Rewinds where
  takes := first.takes.next second.takes
  points := by
    intro input error run
    obtain before | ⟨f, middle, cause, left, before, inner, rfl⟩ := error_of_next run
    · exact first.points before
    · exact (second.points inner).element s.size (first.takes before).1

theorem Rewinds.mapValue {s : Sequence α} (h : s.Rewinds) (f : α → β) :
    (s.mapValue f).Rewinds where
  takes := by
    intro input value rest run
    unfold Runs Sequence.mapValue at run
    simp only at run
    split at run
    · cases run
    · rename_i before
      cases run
      exact h.takes before
  points := by
    intro input error run
    simp only [Sequence.mapValue] at run
    split at run
    · rename_i before
      cases run
      exact h.points before
    · cases run

theorem Rewinds.parser {s : Sequence α} (h : s.Rewinds) : s.parser.Rewinds where
  takes := h.takes.parser
  points := by
    intro input error rest run
    exact h.points (error_of_failure run)

end Sequence

namespace Parser

variable {p : Parser α} {q : Parser β} {r : Parser γ}

theorem literal_rewinds (text : String) : (literal text).Rewinds where
  takes := (literal_takes text).weaken (Nat.zero_le _)
  points := by
    intro input error rest run
    unfold literal at run
    split at run
    · cases run
    · cases run
      exact ParseError.pointsInto_leaf _ _

theorem takeWhile_rewinds (pred : Char → Bool) : (takeWhile pred).Rewinds where
  takes := takeWhile_takes pred
  points := by
    intro input error rest run
    cases run

theorem takeBetween_rewinds (min max : Nat) (pred : Char → Bool) :
    (takeBetween min max pred).Rewinds where
  takes := (takeBetween_takes min max pred).weaken (Nat.zero_le _)
  points := by
    intro input error rest run
    rw [takeBetween_eq] at run
    split at run
    · cases run
      exact ParseError.pointsInto_leaf _ _
    · cases run

theorem Rewinds.map (h : p.Rewinds) (f : α → β) : (p.map f).Rewinds where
  takes := h.takes.map f
  points := by
    intro input error rest run
    exact h.points (failure_of_map run)

theorem Rewinds.mapOrRefuse (h : p.Rewinds) (f : α → Except String β) :
    (p.mapOrRefuse f).Rewinds where
  takes := h.takes.mapOrRefuse f
  points := by
    intro input error rest run
    obtain inner | ⟨value, reason, refused, rfl⟩ := failure_of_mapOrRefuse run
    · exact h.points inner
    · exact ParseError.pointsInto_leaf _ _

theorem firstOf_rewinds {ps : List (Parser α)} (nonempty : ps ≠ []) (h : ∀ p ∈ ps, p.Rewinds) :
    (firstOf ps).Rewinds where
  takes := firstOf_takes fun p member => (h p member).takes
  points := by
    intro input error rest run
    obtain ⟨errors, rfl, count, each⟩ := failure_of_firstOf run
    apply ParseError.pointsInto_alternatives
    · rintro rfl
      exact nonempty (List.length_eq_zero_iff.1 count.symm)
    · intro cause member
      obtain ⟨p, tried, left, inner⟩ := each cause member
      exact (h p tried).points inner

theorem Rewinds.optional (h : p.Rewinds) : p.optional.Rewinds where
  takes := h.takes.optional
  points := by
    intro input error rest run
    exact absurd run (optional_ne_failure p)

theorem Rewinds.many (h : p.Rewinds) : (many p).Rewinds where
  takes := h.takes.many
  points := by
    intro input error rest run
    cases run

theorem Rewinds.skipThen (first : p.Rewinds) (second : q.Rewinds) : (p.skipThen q).Rewinds :=
  ((Sequence.of_rewinds _).next first |>.next second).parser

theorem Rewinds.thenSkip (first : p.Rewinds) (second : q.Rewinds) : (p.thenSkip q).Rewinds :=
  ((Sequence.of_rewinds _).next first |>.next second).parser

theorem Rewinds.between (opening : p.Rewinds) (inner : q.Rewinds) (closing : r.Rewinds) :
    (p.between q r).Rewinds :=
  ((Sequence.of_rewinds _).next opening |>.next inner |>.next closing).parser

end Parser

/-! ## Composed parsers -/

mutual

/-- A parser put together from the combinators, to any nesting. A choice has at least one parser to
choose. -/
inductive Parser.Composed : {α : Type} → Parser α → Prop where
  | literal (text : String) : Parser.Composed (Parser.literal text)
  | takeWhile (pred : Char → Bool) : Parser.Composed (Parser.takeWhile pred)
  | takeBetween (min max : Nat) (pred : Char → Bool) :
      Parser.Composed (Parser.takeBetween min max pred)
  | blanks : Parser.Composed Parser.blanks
  | someBlanks : Parser.Composed Parser.someBlanks
  | map {α β : Type} {p : Parser α} (f : α → β) (inner : Parser.Composed p) :
      Parser.Composed (p.map f)
  | mapOrRefuse {α β : Type} {p : Parser α} (f : α → Except String β) (inner : Parser.Composed p) :
      Parser.Composed (p.mapOrRefuse f)
  | firstOf {α : Type} {ps : List (Parser α)} (nonempty : ps ≠ [])
      (each : ∀ p ∈ ps, Parser.Composed p) : Parser.Composed (Parser.firstOf ps)
  | optional {α : Type} {p : Parser α} (inner : Parser.Composed p) : Parser.Composed p.optional
  | many {α : Type} {p : Parser α} (inner : Parser.Composed p) : Parser.Composed p.many
  | sequence {α : Type} {s : Sequence α} (elements : Sequence.Composed s) :
      Parser.Composed s.parser
  | skipThen {α β : Type} {p : Parser α} {q : Parser β} (first : Parser.Composed p)
      (second : Parser.Composed q) : Parser.Composed (p.skipThen q)
  | thenSkip {α β : Type} {p : Parser α} {q : Parser β} (first : Parser.Composed p)
      (second : Parser.Composed q) : Parser.Composed (p.thenSkip q)
  | between {α β γ : Type} {p : Parser α} {q : Parser β} {r : Parser γ}
      (opening : Parser.Composed p) (inner : Parser.Composed q) (closing : Parser.Composed r) :
      Parser.Composed (p.between q r)

inductive Sequence.Composed : {α : Type} → Sequence α → Prop where
  | of {α : Type} (value : α) : Sequence.Composed (Sequence.of value)
  | next {α β : Type} {s : Sequence (α → β)} {p : Parser α} (first : Sequence.Composed s)
      (second : Parser.Composed p) : Sequence.Composed (s.next p)
  | mapValue {α β : Type} {s : Sequence α} (f : α → β) (inner : Sequence.Composed s) :
      Sequence.Composed (s.mapValue f)

end

mutual

theorem Parser.Composed.rewinds : {α : Type} → {p : Parser α} → p.Composed → p.Rewinds
  | _, _, .literal text => Parser.literal_rewinds text
  | _, _, .takeWhile pred => Parser.takeWhile_rewinds pred
  | _, _, .takeBetween min max pred => Parser.takeBetween_rewinds min max pred
  | _, _, .blanks => Parser.takeWhile_rewinds _
  | _, _, .someBlanks => Parser.takeBetween_rewinds _ _ _
  | _, _, .map f inner => inner.rewinds.map f
  | _, _, .mapOrRefuse f inner => inner.rewinds.mapOrRefuse f
  | _, _, .firstOf nonempty each =>
    Parser.firstOf_rewinds nonempty fun p member => (each p member).rewinds
  | _, _, .optional inner => inner.rewinds.optional
  | _, _, .many inner => inner.rewinds.many
  | _, _, .sequence elements => elements.rewinds.parser
  | _, _, .skipThen first second => first.rewinds.skipThen second.rewinds
  | _, _, .thenSkip first second => first.rewinds.thenSkip second.rewinds
  | _, _, .between opening inner closing =>
    opening.rewinds.between inner.rewinds closing.rewinds

theorem Sequence.Composed.rewinds : {α : Type} → {s : Sequence α} → s.Composed → s.Rewinds
  | _, _, .of value => Sequence.of_rewinds value
  | _, _, .next first second => first.rewinds.next second.rewinds
  | _, _, .mapValue f inner => inner.rewinds.mapValue f

end

/-- A composed parser leaves an end of its input on success. On failure it leaves all of it, and the
failure has leaves, each of which counts the bytes of an end of the input. -/
theorem composed_parser_rewinds {p : Parser α} (composed : p.Composed) (input : List Char) :
    (∀ value rest, p input = .success value rest → rest <:+ input) ∧
      ∀ error rest, p input = .failure error rest →
        rest = input ∧ error.leaves ≠ [] ∧
          (∀ leaf ∈ error.leaves, ∃ left, left <:+ input ∧ leaf.2 = byteLength left) ∧
          error.remainingBytes ≤ byteLength input := by
  have rewinds := composed.rewinds
  constructor
  · intro value rest run
    exact (rewinds.takes.success run).1
  · intro error rest run
    have points := rewinds.points run
    exact ⟨rewinds.takes.failure run, points.nonempty, points.counts, points.remainingBytes_le⟩

/-- Any number of `é`, which has two bytes, and then `a` or `bc`. The text `ééb!` fails at its third
character with two bytes left, behind a refusal that does not come to bear. -/
theorem composed_parser_rewinds_within_text :
    let ending := Parser.firstOf [Parser.literal "a", Parser.literal "bc"]
    let word := (Sequence.of fun front _ => front).next (Parser.takeWhile (· == 'é')) |>.next ending
    let p := word.parser.mapOrRefuse fun front =>
      if front.length < 3 then .ok front else .error "too long"
    let error := ParseError.element 1
      (.alternatives [.leaf (.literal "a") 2, .leaf (.literal "bc") 2])
    p.Composed ∧ p "ééb!".toList = .failure error "ééb!".toList ∧
      (∀ leaf ∈ error.leaves, ∃ left, left <:+ "ééb!".toList ∧ leaf.2 = byteLength left) ∧
      error.remainingBytes ≤ byteLength "ééb!".toList := by
  intro ending word p error
  have choice : ending.Composed := .firstOf (by simp) fun q member => by
    simp only [List.mem_cons, List.not_mem_nil, or_false] at member
    rcases member with rfl | rfl
    · exact .literal "a"
    · exact .literal "bc"
  have composed : p.Composed :=
    .mapOrRefuse _ (.sequence (.next (.next (.of _) (.takeWhile _)) choice))
  have fails : p "ééb!".toList = .failure error "ééb!".toList := rfl
  obtain ⟨-, -, counts, least⟩ := (composed_parser_rewinds composed _).2 _ _ fails
  exact ⟨composed, fails, counts, least⟩

end ErrorML
