import ErrorML.Parsing.Parser

namespace ErrorML.Parser

variable {α : Type}

inductive Rounds (p : Parser α) : List Char → List α → List Char → Prop
  | done {input} : Rounds p input [] input
  | more {input values middle value rest} : Rounds p input values middle →
      p middle = .success value rest → rest.length < middle.length →
      Rounds p input (values ++ [value]) rest

variable {p : Parser α} {input rest : List Char} {values : List α}

theorem Rounds.collect (rounds : Rounds p input values rest) :
    Parser.collect p input = (values ++ (Parser.collect p rest).1, (Parser.collect p rest).2) := by
  induction rounds with
  | done => rfl
  | more _ run shorter ih => rw [ih, collect_success run shorter, List.append_cons]

theorem Rounds.many (rounds : Rounds p input values rest) (failed : p.Fails rest) :
    Parser.many p input = .success values rest := by
  rw [many_eq, rounds.collect, collect_of_fails failed, List.append_nil]

end ErrorML.Parser
