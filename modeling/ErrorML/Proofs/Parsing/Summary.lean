import ErrorML.Proofs.Parsing.Rewinding

namespace ErrorML.ParseError

def wordings (remaining : Nat) (leaves : List (Expectation × Nat)) : List String :=
  (leaves.filter fun leaf => leaf.2 = remaining).map fun leaf => leaf.1.message

@[simp] theorem wordings_nil (remaining : Nat) : wordings remaining [] = [] := rfl

@[simp] theorem wordings_append (remaining : Nat) (front back : List (Expectation × Nat)) :
    wordings remaining (front ++ back) = wordings remaining front ++ wordings remaining back := by
  simp [wordings]

theorem wordings_singleton (remaining : Nat) (leaf : Expectation × Nat) :
    wordings remaining [leaf] = if leaf.2 = remaining then [leaf.1.message] else [] := by
  by_cases furthest : leaf.2 = remaining
  · simp [wordings, furthest]
  · simp [wordings, furthest]

theorem mem_wordings {remaining : Nat} {leaves : List (Expectation × Nat)} {wording : String} :
    wording ∈ wordings remaining leaves ↔
      ∃ leaf ∈ leaves, leaf.2 = remaining ∧ leaf.1.message = wording := by
  simp [wordings, and_assoc]

theorem eraseDups_concat (found : List String) (wording : String) :
    (found ++ [wording]).eraseDups =
      if wording ∈ found then found.eraseDups else found.eraseDups ++ [wording] := by
  rw [List.eraseDups_append]
  by_cases known : wording ∈ found
  · simp [known, List.removeAll]
  · simp [known, List.removeAll, List.eraseDups_cons]

mutual

theorem collect_eq {remaining : Nat} : (error : ParseError) → (found : List String) →
    collect remaining found.eraseDups error =
      (found ++ wordings remaining error.leaves).eraseDups
  | .leaf expectation left, found => by
    rw [collect, leaves_leaf, wordings_singleton]
    by_cases furthest : left = remaining
    · simp only [furthest, true_and, List.mem_eraseDups, if_true, eraseDups_concat, ite_not]
    · simp only [furthest, false_and, if_false, List.append_nil]
  | .alternatives causes, found => by
    rw [collect, leaves_alternatives]
    exact collectAll_eq causes found
  | .element index cause, found => by
    rw [collect, leaves_element]
    exact collect_eq cause found

theorem collectAll_eq {remaining : Nat} : (causes : List ParseError) → (found : List String) →
    collectAll remaining found.eraseDups causes =
      (found ++ wordings remaining (leavesOf causes)).eraseDups
  | [], found => by
    rw [collectAll, leavesOf, wordings_nil, List.append_nil]
  | cause :: causes, found => by
    rw [collectAll, collect_eq cause, collectAll_eq causes, leavesOf, wordings_append,
      List.append_assoc]

end

theorem remainingBytes_eq (error : ParseError) :
    error.remainingBytes = (error.leaves.map Prod.snd).min?.getD maxWord := by
  rw [remainingBytes, furthest?_eq]

theorem expectations_eq (error : ParseError) :
    error.expectations = (wordings error.remainingBytes error.leaves).eraseDups :=
  collect_eq error []

theorem mem_expectations {error : ParseError} {wording : String} :
    wording ∈ error.expectations ↔
      ∃ leaf ∈ error.leaves, leaf.2 = error.remainingBytes ∧ leaf.1.message = wording := by
  rw [expectations_eq, List.mem_eraseDups, mem_wordings]

theorem expectations_ne_nil {error : ParseError} (nonempty : error.leaves ≠ []) :
    error.expectations ≠ [] := by
  obtain ⟨leaf, member, furthest⟩ := exists_furthest nonempty
  exact List.ne_nil_of_mem (mem_expectations.2 ⟨leaf, member, furthest, rfl⟩)

theorem expectations_eq_nil_iff {error : ParseError} :
    error.expectations = [] ↔ error.leaves = [] := by
  constructor
  · intro silent
    by_cases none : error.leaves = []
    · exact none
    · exact absurd silent (expectations_ne_nil none)
  · intro none
    rw [expectations_eq, none, wordings_nil, List.eraseDups_nil]

theorem summary_congr {error other : ParseError} (same : error.leaves = other.leaves) :
    error.remainingBytes = other.remainingBytes ∧ error.expectations = other.expectations := by
  have furthest : error.remainingBytes = other.remainingBytes := by
    rw [remainingBytes_eq, remainingBytes_eq, same]
  exact ⟨furthest, by rw [expectations_eq, expectations_eq, same, furthest]⟩

/-- The bytes left where a parse got furthest are the least count of any leaf, and the largest word
if there is no leaf. What is reported are the wordings of the leaves with just that count, from left
to right, of equal ones only the first. Nothing is reported only where there is no leaf. -/
theorem summary_of_leaves (error : ParseError) :
    error.remainingBytes = (error.leaves.map fun leaf => leaf.2).min?.getD maxWord ∧
      error.expectations =
        ((error.leaves.filter fun leaf => leaf.2 = error.remainingBytes).map
          fun leaf => leaf.1.message).eraseDups ∧
      (error.expectations = [] ↔ error.leaves = []) := by
  refine ⟨?_, ?_, ?_⟩
  · exact remainingBytes_eq error
  · rw [expectations_eq, wordings]
  · exact expectations_eq_nil_iff

end ErrorML.ParseError
