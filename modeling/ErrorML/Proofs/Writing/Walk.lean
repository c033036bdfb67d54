import ErrorML.Proofs.Writing.Lines

/-!
# Derivations as walks

The walk around a derivation comes to a node before its premises, which it goes through in order,
and to a node that has premises once more after them. Each stop of the walk is a line of the text,
and each line is one, indented by the level at which the walk is.
-/

namespace ErrorML

variable {ρ : Type}

/-! ## The walk -/

inductive Visit (ρ : Type) where
  | enter (node : Derivation ρ)
  | leave (node : Derivation ρ)
  | fact (fact : Fact)

mutual

/-- The stops of the walk, each with its level. A node that has no premises is not left again. -/
def Derivation.walk (level : Nat) : Derivation ρ → List (Nat × Visit ρ)
  | .node conclusion rule [] => [(level, .enter (.node conclusion rule []))]
  | .node conclusion rule (premise :: premises) =>
    (level, .enter (.node conclusion rule (premise :: premises))) ::
      (Premise.walkOf (level + 1) (premise :: premises) ++
        [(level, .leave (.node conclusion rule (premise :: premises)))])

def Premise.walk (level : Nat) : Premise ρ → List (Nat × Visit ρ)
  | .derivation d => d.walk level
  | .fact fact => [(level, .fact fact)]

def Premise.walkOf (level : Nat) : List (Premise ρ) → List (Nat × Visit ρ)
  | [] => []
  | premise :: premises => premise.walk level ++ Premise.walkOf level premises

end

def Visit.words (name : ρ → String) : Visit ρ → String
  | .enter node =>
    node.conclusion.text ++ " by " ++ name node.rule ++
      if node.premises.isEmpty then "\x7b\x7d;" else "\x7b"
  | .leave _ => "\x7d;"
  | .fact f => f.text ++ " by " ++ f.ruleName ++ "\x7b\x7d;"

def Visit.entered? : Visit ρ → Option (Derivation ρ)
  | .enter node => some node
  | .leave _ => none
  | .fact _ => none

def Visit.line (name : ρ → String) (stop : Nat × Visit ρ) : String :=
  indentation stop.1 ++ stop.2.words name

/-! ## Equations -/

theorem Derivation.walk_leaf (level : Nat) (conclusion : Judgment) (rule : ρ) :
    (node conclusion rule []).walk level = [(level, .enter (node conclusion rule []))] := by
  rw [walk]

theorem Derivation.walk_node (level : Nat) (conclusion : Judgment) (rule : ρ) (premise : Premise ρ)
    (premises : List (Premise ρ)) :
    (node conclusion rule (premise :: premises)).walk level =
      (level, .enter (node conclusion rule (premise :: premises))) ::
        (Premise.walkOf (level + 1) (premise :: premises) ++
          [(level, .leave (node conclusion rule (premise :: premises)))]) := by
  rw [walk]

@[simp] theorem Premise.walk_derivation (level : Nat) (d : Derivation ρ) :
    (derivation d).walk level = d.walk level := by
  rw [walk]

@[simp] theorem Premise.walk_fact (level : Nat) (f : Fact) :
    (fact f : Premise ρ).walk level = [(level, .fact f)] := by
  rw [walk]

@[simp] theorem Premise.walkOf_nil (level : Nat) : walkOf level ([] : List (Premise ρ)) = [] := by
  rw [walkOf]

@[simp] theorem Premise.walkOf_cons (level : Nat) (premise : Premise ρ)
    (premises : List (Premise ρ)) :
    walkOf level (premise :: premises) = premise.walk level ++ walkOf level premises := by
  rw [walkOf]

/-! ## Lines -/

mutual

theorem Derivation.lines_eq_walk (name : ρ → String) (level : Nat) : (d : Derivation ρ) →
    d.lines name level = (d.walk level).map (Visit.line name)
  | .node conclusion rule [] => by
    rw [Derivation.lines_leaf, Derivation.walk_leaf, openingLine]
    simp [Visit.line, Visit.words, Derivation.conclusion, Derivation.rule, Derivation.premises,
      String.append_assoc]
  | .node conclusion rule (premise :: premises) => by
    rw [Derivation.lines_node, Derivation.walk_node, openingLine,
      Premise.linesOf_eq_walk name (level + 1) (premise :: premises)]
    simp [Visit.line, Visit.words, Derivation.conclusion, Derivation.rule, Derivation.premises,
      String.append_assoc]

theorem Premise.lines_eq_walk (name : ρ → String) (level : Nat) : (premise : Premise ρ) →
    premise.lines name level = (premise.walk level).map (Visit.line name)
  | .derivation d => by
    rw [Premise.lines, Premise.walk_derivation, Derivation.lines_eq_walk name level d]
  | .fact fact => by
    rw [Premise.lines, Premise.walk_fact]
    simp [Visit.line, Visit.words, Fact.line, String.append_assoc]

theorem Premise.linesOf_eq_walk (name : ρ → String) (level : Nat) : (premises : List (Premise ρ)) →
    Premise.linesOf name level premises = (Premise.walkOf level premises).map (Visit.line name)
  | [] => by
    rw [Premise.linesOf, Premise.walkOf_nil]
    rfl
  | premise :: premises => by
    rw [Premise.linesOf, Premise.walkOf_cons, Premise.lines_eq_walk name level premise,
      Premise.linesOf_eq_walk name level premises, List.map_append]

end

/-! ## Order -/

mutual

theorem Derivation.enteredNodes_walk (level : Nat) : (d : Derivation ρ) →
    (d.walk level).filterMap (fun stop => stop.2.entered?) = d.nodes
  | .node conclusion rule [] => by
    rw [Derivation.walk_leaf, Derivation.nodes_node]
    rfl
  | .node conclusion rule (premise :: premises) => by
    have inner := Premise.enteredNodes_walkOf (level + 1) (premise :: premises)
    rw [Derivation.walk_node, Derivation.nodes_node, ← inner]
    simp [Visit.entered?]

theorem Premise.enteredNodes_walk (level : Nat) : (premise : Premise ρ) →
    (premise.walk level).filterMap (fun stop => stop.2.entered?) = premise.nodes
  | .derivation d => by
    rw [Premise.walk_derivation, Premise.nodes_derivation, Derivation.enteredNodes_walk level d]
  | .fact fact => by
    rw [Premise.walk_fact, Premise.nodes_fact]
    rfl

theorem Premise.enteredNodes_walkOf (level : Nat) : (premises : List (Premise ρ)) →
    (Premise.walkOf level premises).filterMap (fun stop => stop.2.entered?) =
      Premise.nodesOf premises
  | [] => by
    rw [Premise.walkOf_nil, Premise.nodesOf_nil]
    rfl
  | premise :: premises => by
    rw [Premise.walkOf_cons, Premise.nodesOf_cons, List.filterMap_append,
      Premise.enteredNodes_walk level premise, Premise.enteredNodes_walkOf level premises]

end

/-! ## Levels -/

structure Deepest (stops : List (Nat × Visit ρ)) (n : Nat) : Prop where
  below : ∀ stop ∈ stops, stop.1 < n
  reached : ∃ stop ∈ stops, stop.1 + 1 = n

theorem deepest_singleton (stop : Nat × Visit ρ) : Deepest [stop] (stop.1 + 1) where
  below := by simp
  reached := by simp

theorem Deepest.append {front back : List (Nat × Visit ρ)} {m n : Nat} (first : Deepest front m)
    (second : Deepest back n) : Deepest (front ++ back) (max m n) where
  below := by
    intro stop member
    rcases List.mem_append.1 member with inside | inside
    · exact Nat.lt_of_lt_of_le (first.below stop inside) (Nat.le_max_left m n)
    · exact Nat.lt_of_lt_of_le (second.below stop inside) (Nat.le_max_right m n)
  reached := by
    rcases Nat.le_total m n with le | le
    · obtain ⟨stop, inside, level⟩ := second.reached
      exact ⟨stop, List.mem_append_right _ inside, by omega⟩
    · obtain ⟨stop, inside, level⟩ := first.reached
      exact ⟨stop, List.mem_append_left _ inside, by omega⟩

theorem Deepest.between {stops : List (Nat × Visit ρ)} {n : Nat} (inner : Deepest stops n)
    {first last : Nat × Visit ρ} (outside : first.1 < n ∧ last.1 < n) :
    Deepest (first :: (stops ++ [last])) n where
  below := by
    simp only [List.mem_cons, List.mem_append, List.not_mem_nil, or_false]
    rintro stop (rfl | inside | rfl)
    · exact outside.1
    · exact inner.below stop inside
    · exact outside.2
  reached := by
    obtain ⟨stop, inside, level⟩ := inner.reached
    exact ⟨stop, List.mem_cons_of_mem _ (List.mem_append_left _ inside), level⟩

mutual

theorem Derivation.deepest_walk (level : Nat) : (d : Derivation ρ) →
    Deepest (d.walk level) (level + d.depth)
  | .node conclusion rule [] => by
    rw [Derivation.walk_leaf, Derivation.depth_node, Premise.depthOf]
    exact deepest_singleton _
  | .node conclusion rule (premise :: premises) => by
    have inner := Premise.deepest_walkOf (level + 1) (premise :: premises) (by simp)
    have outside : level < level + 1 + Premise.depthOf (premise :: premises) := by omega
    rw [Derivation.walk_node, Derivation.depth_node, ← Nat.add_assoc]
    exact inner.between ⟨outside, outside⟩

theorem Premise.deepest_walk (level : Nat) : (premise : Premise ρ) →
    Deepest (premise.walk level) (level + premise.depth)
  | .derivation d => by
    rw [Premise.walk_derivation, Premise.depth]
    exact Derivation.deepest_walk level d
  | .fact f => by
    rw [Premise.walk_fact, Premise.depth]
    exact deepest_singleton _

theorem Premise.deepest_walkOf (level : Nat) : (premises : List (Premise ρ)) → premises ≠ [] →
    Deepest (Premise.walkOf level premises) (level + Premise.depthOf premises)
  | [], nonempty => absurd rfl nonempty
  | [premise], _ => by
    rw [Premise.walkOf_cons, Premise.walkOf_nil, List.append_nil, Premise.depthOf, Premise.depthOf,
      Nat.max_zero]
    exact Premise.deepest_walk level premise
  | premise :: next :: premises, _ => by
    have first := Premise.deepest_walk level premise
    have others := Premise.deepest_walkOf level (next :: premises) (by simp)
    rw [Premise.walkOf_cons, Premise.depthOf, ← Nat.add_max_add_left]
    exact first.append others

end

theorem Derivation.max?_levels_walk (d : Derivation ρ) :
    ((d.walk 0).map fun stop => 2 * stop.1).max? = some (2 * (d.depth - 1)) := by
  have deepest := d.deepest_walk 0
  obtain ⟨stop, member, level⟩ := deepest.reached
  rw [List.max?_eq_some_iff]
  constructor
  · exact List.mem_map.2 ⟨stop, member, by omega⟩
  · intro spaces listed
    obtain ⟨other, member, rfl⟩ := List.mem_map.1 listed
    have below := deepest.below other member
    omega

/-! ## The text -/

section Text

variable {name : ρ → String} {d : Derivation ρ} {level : Nat} {stop : Nat × Visit ρ}

def Derivation.Named (name : ρ → String) (d : Derivation ρ) : Prop :=
  ∀ n ∈ d.nodes, (∀ x ∈ n.conclusion.allNames, isBinder x = true) ∧ isRuleName (name n.rule) = true

instance (name : ρ → String) (d : Derivation ρ) : Decidable (d.Named name) :=
  inferInstanceAs (Decidable (∀ n ∈ d.nodes, _))

theorem Derivation.Named.words (named : d.Named name) (member : stop ∈ d.walk level) :
    '\n' ∉ (stop.2.words name).toList ∧ Flush (stop.2.words name) := by
  obtain ⟨k, visit⟩ := stop
  cases visit with
  | enter node =>
    have entered : node ∈ d.nodes := by
      rw [← Derivation.enteredNodes_walk level d]
      exact List.mem_filterMap.2 ⟨_, member, rfl⟩
    obtain ⟨names, rule⟩ := named node entered
    constructor
    · have conclusion : '\n' ∉ node.conclusion.text.toList := by
        rw [Judgment.newline_mem_text]
        rintro ⟨x, inside, newline⟩
        exact absurd (mem_of_isBinder (names x inside) newline) (by decide)
      have rule : '\n' ∉ (name node.rule).toList := notMem_of_isRuleName rule (by decide)
      simp only [Visit.words, String.toList_append, List.mem_append]
      split <;> simp [conclusion, rule]
    · exact (((Judgment.flush_text names).append _).append _).append _
  | leave node => exact ⟨by simp [Visit.words], '}', [';'], by simp [Visit.words], by decide⟩
  | fact f =>
    have rule : '\n' ∉ f.ruleName.toList := by
      rw [Fact.ruleName]
      cases f.operator <;> decide
    exact ⟨by simp [Visit.words, f.newline_notMem_text, rule],
      ((f.flush_text.append _).append _).append _⟩

theorem toList_line (stop : Nat × Visit ρ) :
    (Visit.line name stop).toList =
      List.replicate (2 * stop.1) ' ' ++ (stop.2.words name).toList := by
  rw [Visit.line, String.toList_append, toList_indentation]

theorem splitOn_text (named : d.Named name) :
    (d.text name).toList.splitOn '\n' =
      (d.walk 0).map fun stop => (Visit.line name stop).toList := by
  have lines : (d.lines name 0).map String.toList =
      (d.walk 0).map fun stop => (Visit.line name stop).toList := by
    rw [Derivation.lines_eq_walk, List.map_map]
    rfl
  have nonempty : (d.walk 0).map (fun stop => (Visit.line name stop).toList) ≠ [] := by
    obtain ⟨stop, member, -⟩ := (d.deepest_walk 0).reached
    exact List.ne_nil_of_mem (List.mem_map_of_mem member)
  rw [Derivation.text, String.toList_intercalate, lines]
  apply List.splitOn_intercalate _ _ nonempty
  intro line listed
  obtain ⟨stop, member, rfl⟩ := List.mem_map.1 listed
  rw [toList_line, List.mem_append]
  rintro (space | word)
  · exact absurd (List.eq_of_mem_replicate space) (by decide)
  · exact (named.words member).1 word

def leadingSpaces (line : List Char) : Nat := (line.takeWhile (· == ' ')).length

theorem leadingSpaces_indentation {words : String} (flush : Flush words) :
    leadingSpaces (indentation level ++ words).toList = 2 * level := by
  obtain ⟨c, more, spelled, visible⟩ := flush
  have front : ∀ a ∈ List.replicate (2 * level) ' ', (a == ' ') = true := by
    intro a member
    rw [List.eq_of_mem_replicate member]
    rfl
  rw [leadingSpaces, String.toList_append, toList_indentation, List.takeWhile_append_of_pos front,
    spelled]
  simp [visible]

theorem suffix_intercalate {α : Type} (separator last : List α) (front : List (List α)) :
    last <:+ separator.intercalate (front ++ [last]) := by
  induction front with
  | nil => simp
  | cons line front ih =>
    rw [List.cons_append, List.intercalate_cons_of_ne_nil (by simp)]
    exact ih.trans (List.suffix_append _ _)

theorem Derivation.exists_last_walk (name : ρ → String) (level : Nat) (d : Derivation ρ) :
    ∃ front visit text, d.walk level = front ++ [(level, visit)] ∧
      visit.words name = text ++ ";" := by
  obtain ⟨conclusion, rule, premises⟩ := d
  cases premises with
  | nil =>
    rw [walk_leaf]
    refine ⟨[], _, conclusion.text ++ " by " ++ name rule ++ "\x7b\x7d", rfl, ?_⟩
    simp [Visit.words, Derivation.conclusion, Derivation.rule, Derivation.premises,
      String.append_assoc]
  | cons premise premises =>
    rw [walk_node]
    exact ⟨_ :: _, _, "\x7d", rfl, rfl⟩

theorem getLast?_text : (d.text name).toList.getLast? = some ';' := by
  obtain ⟨front, visit, text, whole, words⟩ := d.exists_last_walk name 0
  have lines : (d.lines name 0).map String.toList =
      front.map (fun stop => (Visit.line name stop).toList) ++
        [(Visit.line name (0, visit)).toList] := by
    rw [Derivation.lines_eq_walk, whole, List.map_append, List.map_append, List.map_map]
    rfl
  obtain ⟨before, split⟩ := suffix_intercalate "\n".toList (Visit.line name (0, visit)).toList
    (front.map fun stop => (Visit.line name stop).toList)
  rw [Derivation.text, String.toList_intercalate, lines, ← split, toList_line, words,
    String.toList_append, ← List.append_assoc, ← List.append_assoc]
  exact List.getLast?_concat

/-- The text of a derivation is its walk, line by line: root first, each line indented by two spaces
for each level, and premises closed after all of them. The largest indentation tells the depth, and
no line feed ends the text. -/
theorem derivation_text_lines (name : ρ → String) (d : Derivation ρ) (named : d.Named name) :
    let lines := (d.text name).toList.splitOn '\n'
    lines = (d.walk 0).map (fun stop =>
        List.replicate (2 * stop.1) ' ' ++ (stop.2.words name).toList) ∧
      lines.map leadingSpaces = (d.walk 0).map (fun stop => 2 * stop.1) ∧
      (d.walk 0).filterMap (fun stop => stop.2.entered?) = d.nodes ∧
      (lines.map leadingSpaces).max? = some (2 * (d.depth - 1)) ∧
      (d.text name).toList.getLast? = some ';' := by
  intro lines
  have split : lines = (d.walk 0).map fun stop => (Visit.line name stop).toList :=
    splitOn_text named
  have spaces : lines.map leadingSpaces = (d.walk 0).map fun stop => 2 * stop.1 := by
    rw [split, List.map_map]
    apply List.map_congr_left
    intro stop member
    exact leadingSpaces_indentation (named.words member).2
  refine ⟨?_, spaces, d.enteredNodes_walk 0, ?_, getLast?_text⟩
  · rw [split]
    exact List.map_congr_left fun stop _ => toList_line stop
  · rw [spaces]
    exact d.max?_levels_walk

/-- A derivation whose deepest premises are leaves and a fact. Its variable is called like the word
before rules. -/
theorem derivation_text_lines_fact :
    let env := Env.push .empty "by" (.int 1)
    let operand (e : Expr) (n : Int64) (rule : String) : Premise String :=
      .derivation (.node ⟨some env, e, .int n⟩ rule [])
    let sum : Derivation String :=
      .node ⟨some env, .binary .plus (.var "by") (.int 2), .int 3⟩ "E-Plus"
        [operand (.var "by") 1 "E-Var1", operand (.int 2) 2 "E-Int", .fact (.plus 1 2 3)]
    let d : Derivation String :=
      .node ⟨some .empty, .letIn "by" (.int 1) (.binary .plus (.var "by") (.int 2)), .int 3⟩ "E-Let"
        [.derivation (.node ⟨some .empty, .int 1, .int 1⟩ "E-Int" []), .derivation sum]
    d.Named id ∧
      ((d.text id).toList.splitOn '\n').map leadingSpaces = [0, 2, 2, 4, 4, 4, 2, 0] ∧
      d.depth = 3 ∧
      (((d.text id).toList.splitOn '\n').map leadingSpaces).max? = some (2 * (d.depth - 1)) := by
  intro env operand sum d
  have named : d.Named id := by decide +kernel
  obtain ⟨-, spaces, -, deepest, -⟩ := derivation_text_lines id d named
  exact ⟨named, spaces.trans rfl, rfl, deepest⟩

end Text

end ErrorML
