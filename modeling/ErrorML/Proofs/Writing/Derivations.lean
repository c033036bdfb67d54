import ErrorML.Proofs.Writing.Values
import ErrorML.Proofs.Writing.Walk

namespace ErrorML

open Grammar

/-! ## Facts -/

theorem booleanText_inj {a b : Bool} (same : booleanText a = booleanText b) : a = b := by
  cases a <;> cases b <;> first | rfl | exact absurd same (by decide)

theorem operand_append_inj {m n : Int64} {rest rest' : List Char}
    (same : (integerText m).toList ++ ' ' :: rest = (integerText n).toList ++ ' ' :: rest') :
    m = n ∧ rest = rest' := by
  have space (n : Int64) : ' ' ∉ (integerText n).toList :=
    fun member => absurd (mem_integerText member) (by decide)
  obtain ⟨operands, rest⟩ := cut_first (space m) (space n) same
  exact ⟨integerText_inj (String.toList_inj.1 operands), rest⟩

theorem Fact.text_inj {f f' : Fact} (same : f.text = f'.text) : f = f' := by
  rw [← String.toList_inj] at same
  cases f <;> cases f' <;>
    simp only [text, String.toList_append, String.reduceToList, List.append_assoc,
      List.cons_append, List.nil_append] at same
  case plus.plus | minus.minus | times.times =>
    obtain ⟨rfl, rest⟩ := operand_append_inj same
    simp only [List.cons.injEq, true_and] at rest
    obtain ⟨rfl, result⟩ := operand_append_inj rest
    simp only [List.cons.injEq, true_and] at result
    rw [integerText_inj (String.toList_inj.1 result)]
  case less.less =>
    obtain ⟨rfl, rest⟩ := operand_append_inj same
    simp only [List.cons.injEq, true_and] at rest
    obtain ⟨rfl, result⟩ := operand_append_inj rest
    simp only [List.cons.injEq, true_and] at result
    rw [booleanText_inj (String.toList_inj.1 result)]
  -- Different operators differ in the first letter after the operand.
  all_goals exact absurd (operand_append_inj same).2 (by simp)

theorem Fact.v_notMem_text (f : Fact) : 'v' ∉ f.text.toList := by
  have number (n : Int64) : 'v' ∉ (integerText n).toList :=
    fun member => absurd (mem_integerText member) (by decide)
  have truth (b : Bool) : 'v' ∉ (booleanText b).toList := by cases b <;> decide
  cases f <;> simp [text, number, truth]

theorem Fact.text_ne_judgment (f : Fact) (j : Judgment) : f.text ≠ j.text := by
  intro same
  apply f.v_notMem_text
  rw [same, Judgment.text]
  simp

/-! ## Lines -/

variable {ρ : Type} {name : ρ → String}

theorem by_append_inj {text text' rule rule' : String} (outside : ' ' ∉ rule.toList)
    (outside' : ' ' ∉ rule'.toList) (same : text ++ " by " ++ rule = text' ++ " by " ++ rule') :
    text = text' ∧ rule = rule' := by
  rw [← String.toList_inj] at same
  simp only [String.toList_append] at same
  have before (text : String) :
      text.toList ++ " by ".toList = text.toList ++ " by".toList ++ [' '] := by
    simp
  rw [before, before, List.append_assoc, List.append_assoc (text'.toList ++ _)] at same
  obtain ⟨texts, rules⟩ := cut_last outside outside' same
  exact ⟨String.toList_inj.1 (List.append_cancel_right texts), String.toList_inj.1 rules⟩

def closing (leaf : Bool) : String := if leaf then "\x7b\x7d;" else "\x7b"

theorem closing_append_inj {rule rule' : String} {leaf leaf' : Bool}
    (same : rule ++ closing leaf = rule' ++ closing leaf') : rule = rule' ∧ leaf = leaf' := by
  rw [← String.toList_inj, String.toList_append, String.toList_append] at same
  have last := congrArg List.getLast? same
  cases leaf <;> cases leaf'
  case false.false | true.true =>
    exact ⟨String.toList_inj.1 (List.append_cancel_right same), rfl⟩
  all_goals simp [closing] at last

namespace Visit

variable {conclusion conclusion' : Judgment} {rule rule' : ρ}
  {premises premises' : List (Premise ρ)}

theorem words_enter (conclusion : Judgment) (rule : ρ) (premises : List (Premise ρ)) :
    (enter (.node conclusion rule premises)).words name =
      conclusion.text ++ " by " ++ (name rule ++ closing premises.isEmpty) := by
  rw [words, closing, String.append_assoc]
  rfl

theorem words_fact (f : Fact) :
    (fact f : Visit ρ).words name = f.text ++ " by " ++ (f.ruleName ++ closing true) := by
  rw [words, closing, String.append_assoc]
  rfl

theorem space_notMem_rule {rule : String} (named : isRuleName rule = true) (leaf : Bool) :
    ' ' ∉ (rule ++ closing leaf).toList := by
  have outside : ' ' ∉ rule.toList := notMem_of_isRuleName named (by decide)
  cases leaf <;> simp [closing, outside]

theorem isRuleName_ruleName (f : Fact) : isRuleName f.ruleName = true := by
  rw [Fact.ruleName]
  cases f.operator <;> decide

theorem enter_words_inj (judgment : conclusion.WellBound) (judgment' : conclusion'.WellBound)
    (named : isRuleName (name rule) = true) (named' : isRuleName (name rule') = true)
    (same : (enter (.node conclusion rule premises)).words name =
      (enter (.node conclusion' rule' premises')).words name) :
    conclusion = conclusion' ∧ name rule = name rule' ∧ premises.isEmpty = premises'.isEmpty := by
  rw [words_enter, words_enter] at same
  obtain ⟨texts, rules⟩ :=
    by_append_inj (space_notMem_rule named _) (space_notMem_rule named' _) same
  exact ⟨Judgment.text_inj judgment judgment' texts, closing_append_inj rules⟩

theorem fact_words_inj {f f' : Fact}
    (same : (fact f : Visit ρ).words name = (fact f' : Visit ρ).words name) : f = f' := by
  rw [words_fact, words_fact] at same
  exact Fact.text_inj (by_append_inj (space_notMem_rule (isRuleName_ruleName f) _)
    (space_notMem_rule (isRuleName_ruleName f') _) same).1

theorem enter_words_ne_fact (named : isRuleName (name rule) = true) (f : Fact) :
    (enter (.node conclusion rule premises)).words name ≠ (fact f : Visit ρ).words name := by
  rw [words_enter, words_fact]
  intro same
  exact f.text_ne_judgment conclusion (by_append_inj (space_notMem_rule named _)
    (space_notMem_rule (isRuleName_ruleName f) _) same).1.symm

theorem line_inj {level : Nat} {visit visit' : Visit ρ}
    (same : line name (level, visit) = line name (level, visit')) :
    visit.words name = visit'.words name := by
  rw [← String.toList_inj, toList_line, toList_line] at same
  exact String.toList_inj.1 (List.append_cancel_left same)

end Visit

/-! ## Walks -/

/-- Names and indices are of their kind in all judgments, where bindings may have the dot for a
name, and no rule has white space in its name. -/
def Derivation.WellBound (name : ρ → String) (d : Derivation ρ) : Prop :=
  ∀ n ∈ d.nodes, n.conclusion.WellBound ∧ isRuleName (name n.rule) = true

instance (name : ρ → String) (d : Derivation ρ) : Decidable (d.WellBound name) :=
  inferInstanceAs (Decidable (∀ n ∈ d.nodes, _))

def Premise.WellBound (name : ρ → String) : Premise ρ → Prop
  | .derivation d => d.WellBound name
  | .fact _ => True

theorem Derivation.wellBound_node {conclusion : Judgment} {rule : ρ} {premises : List (Premise ρ)} :
    (node conclusion rule premises).WellBound name ↔
      (conclusion.WellBound ∧ isRuleName (name rule) = true) ∧
        ∀ premise ∈ premises, premise.WellBound name := by
  rw [WellBound, forall_nodes_node]
  refine and_congr_right fun _ => ⟨fun h premise member => ?_, fun h d member => h _ member⟩
  cases premise with
  | derivation d => exact h d member
  | fact f => trivial

theorem Derivation.WellBound.named {d : Derivation ρ} (h : d.WellBound name) : d.Named name :=
  fun n member => ⟨(h n member).1.allNames, (h n member).2⟩

def walkLines (name : ρ → String) (stops : List (Nat × Visit ρ)) : List String :=
  stops.map (Visit.line name)

theorem walkLines_append (name : ρ → String) (front back : List (Nat × Visit ρ)) :
    walkLines name (front ++ back) = walkLines name front ++ walkLines name back :=
  List.map_append

theorem walkLines_leaf (level : Nat) (conclusion : Judgment) (rule : ρ) :
    walkLines name ((Derivation.node conclusion rule []).walk level) =
      [Visit.line name (level, .enter (.node conclusion rule []))] := by
  rw [Derivation.walk_leaf]
  rfl

theorem walkLines_node (level : Nat) (conclusion : Judgment) (rule : ρ) (premise : Premise ρ)
    (premises : List (Premise ρ)) :
    walkLines name ((Derivation.node conclusion rule (premise :: premises)).walk level) =
      Visit.line name (level, .enter (.node conclusion rule (premise :: premises))) ::
        (walkLines name (Premise.walkOf (level + 1) (premise :: premises)) ++
          [indentation level ++ "\x7d;"]) := by
  rw [Derivation.walk_node]
  simp [walkLines, Visit.line, Visit.words]

theorem exists_cons_walkLines (level : Nat) (conclusion : Judgment) (rule : ρ)
    (premises : List (Premise ρ)) :
    ∃ more, walkLines name ((Derivation.node conclusion rule premises).walk level) =
      Visit.line name (level, .enter (.node conclusion rule premises)) :: more := by
  cases premises with
  | nil => exact ⟨_, walkLines_leaf level conclusion rule⟩
  | cons premise premises => exact ⟨_, walkLines_node level conclusion rule premise premises⟩

theorem Premise.exists_cons_walkLines {premise : Premise ρ} (h : premise.WellBound name)
    (level : Nat) :
    ∃ words more, walkLines name (premise.walk level) = (indentation level ++ words) :: more ∧
      Flush words := by
  cases premise with
  | derivation d =>
    obtain ⟨conclusion, rule, premises⟩ := d
    obtain ⟨more, whole⟩ := ErrorML.exists_cons_walkLines level conclusion rule premises
    have judgment := (Derivation.wellBound_node.1 h).1.1
    rw [walk_derivation]
    refine ⟨_, more, whole, ?_⟩
    exact (((Judgment.flush_text judgment.allNames).append _).append _).append _
  | fact f =>
    rw [walk_fact]
    exact ⟨_, [], rfl, ((f.flush_text.append _).append _).append _⟩

theorem Premise.walkLines_ne_closing {premise : Premise ρ} (h : premise.WellBound name)
    {level : Nat} {rest rest' : List String} :
    walkLines name (premise.walk (level + 1)) ++ rest ≠
      (indentation level ++ "\x7d;") :: rest' := by
  obtain ⟨words, more, whole, flush⟩ := exists_cons_walkLines h (level + 1)
  have brace : Flush "\x7d;" := ⟨_, _, rfl, by decide⟩
  intro same
  rw [whole] at same
  have spaces := congrArg (fun line => leadingSpaces line.toList) (List.cons.inj same).1
  simp only [leadingSpaces_indentation flush, leadingSpaces_indentation brace] at spaces
  omega

mutual

/-- The lines of a walk tell the derivation and where they end, whatever comes after them. -/
theorem Derivation.walk_append_inj (injective : Function.Injective name) : (d : Derivation ρ) →
    d.WellBound name → ∀ {d' : Derivation ρ}, d'.WellBound name →
    ∀ {level : Nat} {rest rest' : List String},
      walkLines name (d.walk level) ++ rest = walkLines name (d'.walk level) ++ rest' →
        d = d' ∧ rest = rest'
  | .node conclusion rule premises, wellBound, .node conclusion' rule' premises', wellBound',
      level, rest, rest', same => by
    rw [Derivation.wellBound_node] at wellBound wellBound'
    obtain ⟨⟨judgment, named⟩, above⟩ := wellBound
    obtain ⟨⟨judgment', named'⟩, above'⟩ := wellBound'
    have heads (line : Visit.line name (level, .enter (.node conclusion rule premises)) =
        Visit.line name (level, .enter (.node conclusion' rule' premises'))) :=
      Visit.enter_words_inj judgment judgment' named named' (Visit.line_inj line)
    cases premises with
    | nil =>
      cases premises' with
      | nil =>
        rw [walkLines_leaf, walkLines_leaf] at same
        obtain ⟨line, rest⟩ := List.cons.inj same
        obtain ⟨rfl, rules, -⟩ := heads line
        rw [injective rules]
        exact ⟨rfl, rest⟩
      | cons premise' premises' =>
        rw [walkLines_leaf, walkLines_node] at same
        obtain ⟨-, -, leaves⟩ := heads (List.cons.inj same).1
        cases leaves
    | cons premise premises =>
      cases premises' with
      | nil =>
        rw [walkLines_leaf, walkLines_node] at same
        obtain ⟨-, -, leaves⟩ := heads (List.cons.inj same).1
        cases leaves
      | cons premise' premises' =>
        rw [walkLines_node, walkLines_node, List.cons_append, List.cons_append, List.append_assoc,
          List.append_assoc] at same
        obtain ⟨line, inside⟩ := List.cons.inj same
        obtain ⟨rfl, rules, -⟩ := heads line
        obtain ⟨lists, rest⟩ := Premise.walkOf_append_inj injective _ above above' inside
        rw [injective rules, lists]
        exact ⟨rfl, rest⟩

theorem Premise.walk_append_inj (injective : Function.Injective name) : (premise : Premise ρ) →
    premise.WellBound name → ∀ {premise' : Premise ρ}, premise'.WellBound name →
    ∀ {level : Nat} {rest rest' : List String},
      walkLines name (premise.walk level) ++ rest = walkLines name (premise'.walk level) ++ rest' →
        premise = premise' ∧ rest = rest'
  | .derivation d, wellBound, .derivation d', wellBound', level, rest, rest', same => by
    rw [Premise.walk_derivation, Premise.walk_derivation] at same
    obtain ⟨rfl, rest⟩ := Derivation.walk_append_inj injective d wellBound wellBound' same
    exact ⟨rfl, rest⟩
  | .fact f, _, .fact f', _, level, rest, rest', same => by
    rw [Premise.walk_fact, Premise.walk_fact] at same
    obtain ⟨line, rest⟩ := List.cons.inj same
    exact ⟨by rw [Visit.fact_words_inj (Visit.line_inj line)], rest⟩
  | .derivation (.node conclusion rule premises), wellBound, .fact f, _, level, rest, rest',
      same => by
    obtain ⟨more, whole⟩ := exists_cons_walkLines level conclusion rule premises
    rw [Premise.walk_derivation, Premise.walk_fact, whole] at same
    have named := (Derivation.wellBound_node.1 wellBound).1.2
    exact absurd (Visit.line_inj (List.cons.inj same).1) (Visit.enter_words_ne_fact named f)
  | .fact f, _, .derivation (.node conclusion rule premises), wellBound', level, rest, rest',
      same => by
    obtain ⟨more, whole⟩ := exists_cons_walkLines level conclusion rule premises
    rw [Premise.walk_derivation, Premise.walk_fact, whole] at same
    have named := (Derivation.wellBound_node.1 wellBound').1.2
    exact absurd (Visit.line_inj (List.cons.inj same).1.symm) (Visit.enter_words_ne_fact named f)

theorem Premise.walkOf_append_inj (injective : Function.Injective name) :
    (premises : List (Premise ρ)) →
    (∀ premise ∈ premises, premise.WellBound name) → ∀ {premises' : List (Premise ρ)},
    (∀ premise ∈ premises', premise.WellBound name) → ∀ {level : Nat} {rest rest' : List String},
      walkLines name (Premise.walkOf (level + 1) premises) ++
          (indentation level ++ "\x7d;") :: rest =
        walkLines name (Premise.walkOf (level + 1) premises') ++
          (indentation level ++ "\x7d;") :: rest' →
        premises = premises' ∧ rest = rest'
  | [], _, [], _, level, rest, rest', same => ⟨rfl, (List.cons.inj same).2⟩
  | [], _, premise' :: premises', wellBound', level, rest, rest', same => by
    rw [Premise.walkOf_cons, walkLines_append, List.append_assoc] at same
    exact absurd same.symm (Premise.walkLines_ne_closing (wellBound' premise' List.mem_cons_self))
  | premise :: premises, wellBound, [], _, level, rest, rest', same => by
    rw [Premise.walkOf_cons, walkLines_append, List.append_assoc] at same
    exact absurd same (Premise.walkLines_ne_closing (wellBound premise List.mem_cons_self))
  | premise :: premises, wellBound, premise' :: premises', wellBound', level, rest, rest',
      same => by
    rw [List.forall_mem_cons] at wellBound wellBound'
    rw [Premise.walkOf_cons, Premise.walkOf_cons, walkLines_append, walkLines_append,
      List.append_assoc, List.append_assoc] at same
    obtain ⟨rfl, others⟩ := Premise.walk_append_inj injective premise wellBound.1 wellBound'.1 same
    obtain ⟨rfl, rest⟩ :=
      Premise.walkOf_append_inj injective premises wellBound.2 wellBound'.2 others
    exact ⟨rfl, rest⟩

end

/-- Two derivations that are written alike are the same: judgments, rules and premises, in their
places. All the names in their judgments have to be of their kind, where that of a binding may be
the dot, indices have to be those of words of the machine, from 1 on, and rules have to have names
of their own, without white space. Whether the derivations are derivable does not matter. -/
theorem derivation_text_inj {ρ : Type} {name : ρ → String} (injective : Function.Injective name)
    (d d' : Derivation ρ) (wellBound : d.WellBound name) (wellBound' : d'.WellBound name)
    (same : d.text name = d'.text name) : d = d' := by
  have split : (d.text name).toList.splitOn '\n' = (d'.text name).toList.splitOn '\n' := by
    rw [same]
  have characters : (walkLines name (d.walk 0)).map String.toList =
      (walkLines name (d'.walk 0)).map String.toList := by
    rw [splitOn_text wellBound.named, splitOn_text wellBound'.named] at split
    rw [walkLines, walkLines, List.map_map, List.map_map]
    exact split
  have lines : walkLines name (d.walk 0) ++ [] = walkLines name (d'.walk 0) ++ [] := by
    rw [List.append_nil, List.append_nil]
    exact List.map_injective_iff.2 (fun _ _ => String.toList_inj.1) characters
  exact (Derivation.walk_append_inj injective d wellBound wellBound' lines).1

theorem derivation_text_inj_underivable :
    let identity : Value := .closure .empty ⟨"by", .var "by"⟩
    let nodes (env : Env) : Derivation String :=
      .node ⟨some env, .app (.index 1) (.var "x"), .int 1⟩ "E-App"
        [.derivation (.node ⟨none, .index 1, identity⟩ "E-Var" []), .fact (.plus 1 2 4)]
    let d := nodes (.ofList [("x", .int 1), (".", identity)])
    let d' := nodes (.push (.push .empty "x" (.int 1)) "." identity)
    (d.WellBound id ∧ d'.WellBound id ∧ d.text id = d'.text id) ∧ d = d' := by
  intro identity nodes d d'
  have wellBound : d.WellBound id := by decide +kernel
  have wellBound' : d'.WellBound id := by decide +kernel
  have same : d.text id = d'.text id := rfl
  exact ⟨⟨wellBound, wellBound', same⟩,
    derivation_text_inj Function.injective_id d d' wellBound wellBound' same⟩

end ErrorML
