import ErrorML.Derivation.Basic

namespace ErrorML

variable {ρ : Type}

def indentation (level : Nat) : String :=
  "".pushn ' ' (2 * level)

def Fact.line (level : Nat) (fact : Fact) : String :=
  indentation level ++ fact.text ++ " by " ++ fact.ruleName ++ "\x7b\x7d;"

def openingLine (level : Nat) (conclusion : Judgment) (rule : String) : String :=
  indentation level ++ conclusion.text ++ " by " ++ rule ++ "\x7b"

mutual

def Derivation.lines (name : ρ → String) (level : Nat) : Derivation ρ → List String
  | .node conclusion rule premises =>
    if premises.isEmpty then [openingLine level conclusion (name rule) ++ "\x7d;"]
    else
      openingLine level conclusion (name rule) ::
        (Premise.linesOf name (level + 1) premises ++ [indentation level ++ "\x7d;"])

def Premise.lines (name : ρ → String) (level : Nat) : Premise ρ → List String
  | .derivation d => d.lines name level
  | .fact fact => [fact.line level]

def Premise.linesOf (name : ρ → String) (level : Nat) : List (Premise ρ) → List String
  | [] => []
  | premise :: premises => premise.lines name level ++ Premise.linesOf name level premises

end

def Derivation.text (name : ρ → String) (d : Derivation ρ) : String :=
  "\n".intercalate (d.lines name 0)

namespace Derivation

theorem lines_leaf (name : ρ → String) (level : Nat) (conclusion : Judgment) (rule : ρ) :
    (node conclusion rule []).lines name level =
      [openingLine level conclusion (name rule) ++ "\x7d;"] := by
  simp [lines]

theorem lines_node (name : ρ → String) (level : Nat) (conclusion : Judgment) (rule : ρ)
    (premise : Premise ρ) (premises : List (Premise ρ)) :
    (node conclusion rule (premise :: premises)).lines name level =
      openingLine level conclusion (name rule) ::
        (Premise.linesOf name (level + 1) (premise :: premises) ++
          [indentation level ++ "\x7d;"]) := by
  simp [lines]

end Derivation

end ErrorML
