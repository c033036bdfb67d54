import Mathlib.Logic.Relation
import ErrorML.Proofs.Parsing.Inversion
import ErrorML.Proofs.Parsing.Recursion

/-!
# Recursion that ends

The parsers of the grammar are total because `fix` checks that each recursive call is made on a
shorter input. Here the productions are run without this check, as procedures that call each other
and that do not return if a call does not. No call is made that the check would refuse: a chain of
calls, each inside the one before, ends after as many as the input has characters.
-/

namespace ErrorML.Grammar

open ErrorML.Parser ErrorML.Sequence

variable {n : Nonterminal} {depth : Nat} {input rest : List Char}

/-! ## Depth -/

/-- The results of the calls that nest at most `depth` deep. Nothing asks whether they are made on
shorter inputs. -/
def callsWithin : Nat → Answers
  | 0 => fun _ _ => none
  | depth + 1 => fun n => n.production.run (callsWithin depth)

theorem callsWithin_eq (deep : input.length < depth) :
    callsWithin depth n input = some (n.parser input) := by
  induction depth generalizing n input with
  | zero => omega
  | succ depth ih =>
    have agree : (callsWithin depth).Agree Nonterminal.parser input input.length :=
      fun _ _ _ shorter => ih (by omega)
    rw [callsWithin, n.parser_unfold]
    exact n.production.run_eq Nonterminal.takes agree n.guarded (List.suffix_refl input)
      (Nat.le_refl _)

theorem Production.run_callsWithin {α : Type} (p : Production α) (guarded : p.guarded 1)
    (deep : input.length < depth) :
    p.run (callsWithin depth) input = some (p.parser Nonterminal.parser input) := by
  have agree : (callsWithin depth).Agree Nonterminal.parser input (input.length + 1) :=
    fun _ _ _ short => callsWithin_eq (by omega)
  exact p.run_eq Nonterminal.takes agree guarded (List.suffix_refl input) (Nat.le_refl _)

/-! ## Nesting -/

structure Call where
  nonterminal : Nonterminal
  input : List Char
deriving DecidableEq

def Answers.allBut (call : Call) : Answers := fun n input =>
  if ⟨n, input⟩ = call then none else some (n.parser input)

/-- The call `inner` is made inside `outer`, which does not return if it does not. -/
def Call.Makes (outer inner : Call) : Prop :=
  outer.nonterminal.production.run (Answers.allBut inner) outer.input = none

instance (outer inner : Call) : Decidable (outer.Makes inner) :=
  inferInstanceAs (Decidable (_ = none))

def Call.Shortens (outer inner : Call) : Prop :=
  inner.input <:+ outer.input ∧ inner.input.length < outer.input.length

theorem Call.Makes.shortens {outer inner : Call} (makes : outer.Makes inner) :
    outer.Shortens inner := by
  apply Classical.byContradiction
  intro far
  have agree : (Answers.allBut inner).Agree Nonterminal.parser outer.input outer.input.length := by
    intro n rest suffix shorter
    have other : Call.mk n rest ≠ inner := by
      rintro rfl
      exact far ⟨suffix, shorter⟩
    exact if_neg other
  have returns := outer.nonterminal.production.run_eq Nonterminal.takes agree
    outer.nonterminal.guarded (List.suffix_refl _) (Nat.le_refl _)
  unfold Call.Makes at makes
  rw [returns] at makes
  cases makes

def Call.Encloses : Call → Call → Prop := Relation.TransGen Call.Makes

theorem Call.Encloses.shortens {outer inner : Call} (encloses : outer.Encloses inner) :
    outer.Shortens inner := by
  induction encloses with
  | single makes => exact makes.shortens
  | tail _ makes ih =>
    obtain ⟨back, less⟩ := makes.shortens
    obtain ⟨front, shorter⟩ := ih
    exact ⟨back.trans front, by omega⟩

/-! ## Progress -/

theorem environment_takes_none {env : Env} (run : environment input = .success env rest) :
    rest = input ↔ env = .empty := by
  obtain ⟨found, inner, rfl⟩ := success_of_map run
  obtain ⟨bindings, list, rfl⟩ | ⟨rfl, rfl⟩ := success_of_optional inner
  · have shorter : rest.length + 3 ≤ input.length :=
      ((Production.bindingList.takes Nonterminal.takes).success list).2
    obtain ⟨_, middle, further, front, more, rfl⟩ := (Runs.of_parser list).of_next
    obtain ⟨_, _, first, start, head, rfl⟩ := front.of_next
    obtain ⟨rfl, rfl⟩ := start.of_of
    have taken : rest ≠ input := by
      rintro rfl
      omega
    have bound : Env.ofList (first :: further) ≠ .empty := by
      intro empty
      have none := congrArg Env.toList empty
      rw [Env.toList_ofList, List.reverse_cons] at none
      exact List.append_ne_nil_of_right_ne_nil _ (List.cons_ne_nil _ _) none
    exact iff_of_false taken bound
  · exact iff_of_true rfl rfl

/-- On every input the grammar returns, with calls nested no deeper than the input is long, and
without checks of the lengths of their inputs. A success leaves a shorter end of the input; only
an environment may take nothing, which is the empty one. A call that another one encloses is made on
a shorter end of its input. -/
theorem parsing_terminates :
    (∀ n input depth, input.length < depth →
      callsWithin depth n input = some (n.parser input)) ∧
    (∀ input depth, input.length < depth →
      Production.judgment.run (callsWithin depth) input = some (judgment input) ∧
      Production.request.run (callsWithin depth) input = some (request input)) ∧
    expression.Takes 1 ∧ value.Takes 1 ∧ judgment.Takes 1 ∧ request.Takes 1 ∧
    environment.Takes 0 ∧
    (∀ input env rest, environment input = .success env rest → (rest = input ↔ env = .empty)) ∧
    ∀ outer inner : Call, outer.Encloses inner → outer.Shortens inner := by
  refine ⟨fun _ _ _ => callsWithin_eq, ?_, expression_takes, value_takes, judgment_takes,
    request_takes, environment_takes, fun _ _ _ => environment_takes_none,
    fun _ _ => Call.Encloses.shortens⟩
  intro input depth deep
  exact ⟨Production.judgment.run_callsWithin rfl deep, Production.request.run_callsWithin rfl deep⟩

/-- The value `1` stands inside an environment, inside of a closure that is not finished. -/
theorem parsing_terminates_nested :
    let outer := Call.mk .value "(x=1)[".toList
    let middle := Call.mk .environment "x=1)[".toList
    let inner := Call.mk .value "1)[".toList
    let env := Env.empty.push "x" (.int 1)
    (callsWithin 7 .value outer.input = some (value outer.input)) ∧
    (outer.Makes middle ∧ middle.Makes inner ∧ outer.Shortens inner) ∧
    Production.judgment.run (callsWithin 4) "x=1".toList = some (judgment "x=1".toList) ∧
    (environment "x=1".toList = .success env [] ∧ ([] = "x=1".toList ↔ env = .empty)) := by
  intro outer middle inner env
  have first : outer.Makes middle := by decide +kernel
  have second : middle.Makes inner := by decide +kernel
  have read : environment "x=1".toList = .success env [] :=
    Parsed.eq_success_iff.2 (by decide +kernel)
  obtain ⟨calls, whole, -, -, -, -, -, bindings, nested⟩ := parsing_terminates
  exact ⟨calls _ _ _ (by decide), ⟨first, second, nested _ _ (.tail (.single first) second)⟩,
    (whole _ _ (by decide)).1, read, bindings _ _ _ read⟩

end ErrorML.Grammar
