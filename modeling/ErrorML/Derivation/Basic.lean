import ErrorML.Arithmetic
import ErrorML.Judgment

namespace ErrorML

mutual

inductive Derivation (ρ : Type) where
  | node (conclusion : Judgment) (rule : ρ) (premises : List (Premise ρ))

inductive Premise (ρ : Type) where
  | derivation (derivation : Derivation ρ)
  | fact (fact : Fact)

end

variable {ρ : Type}

def Premise.derivation? : Premise ρ → Option (Derivation ρ)
  | .derivation d => some d
  | .fact _ => none

namespace Derivation

def conclusion : Derivation ρ → Judgment
  | .node conclusion _ _ => conclusion

def rule : Derivation ρ → ρ
  | .node _ rule _ => rule

def premises : Derivation ρ → List (Premise ρ)
  | .node _ _ premises => premises

def value (d : Derivation ρ) : Value := d.conclusion.value

def subderivations (d : Derivation ρ) : List (Derivation ρ) :=
  d.premises.filterMap Premise.derivation?

end Derivation

mutual

/-- The number of rules on a longest path from the root; a fact counts for one. -/
def Derivation.depth : Derivation ρ → Nat
  | .node _ _ premises => 1 + Premise.depthOf premises

def Premise.depth : Premise ρ → Nat
  | .derivation d => d.depth
  | .fact _ => 1

def Premise.depthOf : List (Premise ρ) → Nat
  | [] => 0
  | premise :: premises => max premise.depth (Premise.depthOf premises)

end

mutual

def Derivation.nodes : Derivation ρ → List (Derivation ρ)
  | .node conclusion rule premises =>
    .node conclusion rule premises :: Premise.nodesOf premises

def Premise.nodes : Premise ρ → List (Derivation ρ)
  | .derivation d => d.nodes
  | .fact _ => []

def Premise.nodesOf : List (Premise ρ) → List (Derivation ρ)
  | [] => []
  | premise :: premises => premise.nodes ++ Premise.nodesOf premises

end

@[simp] theorem Premise.nodes_derivation (d : Derivation ρ) :
    (derivation d).nodes = d.nodes := by
  simp [nodes]

@[simp] theorem Premise.nodes_fact (f : Fact) : (fact f : Premise ρ).nodes = [] := by
  simp [nodes]

@[simp] theorem Premise.nodesOf_nil : nodesOf ([] : List (Premise ρ)) = [] := by
  simp [nodesOf]

@[simp] theorem Premise.nodesOf_cons (premise : Premise ρ) (premises : List (Premise ρ)) :
    nodesOf (premise :: premises) = premise.nodes ++ nodesOf premises := by
  simp [nodesOf]

theorem Premise.mem_nodesOf {n : Derivation ρ} {premises : List (Premise ρ)} :
    n ∈ nodesOf premises ↔ ∃ d, derivation d ∈ premises ∧ n ∈ d.nodes := by
  induction premises with
  | nil => simp
  | cons premise premises ih => cases premise <;> simp [ih, or_and_right, exists_or]

namespace Derivation

@[simp] theorem conclusion_node (conclusion : Judgment) (rule : ρ) (premises : List (Premise ρ)) :
    (node conclusion rule premises).conclusion = conclusion := rfl

@[simp] theorem value_node (conclusion : Judgment) (rule : ρ) (premises : List (Premise ρ)) :
    (node conclusion rule premises).value = conclusion.value := rfl

theorem depth_node (conclusion : Judgment) (rule : ρ) (premises : List (Premise ρ)) :
    (node conclusion rule premises).depth = 1 + Premise.depthOf premises := by
  simp [depth]

theorem nodes_node (conclusion : Judgment) (rule : ρ) (premises : List (Premise ρ)) :
    (node conclusion rule premises).nodes =
      node conclusion rule premises :: Premise.nodesOf premises := by
  simp [nodes]

theorem mem_nodes_self (d : Derivation ρ) : d ∈ d.nodes := by
  cases d
  simp [nodes]

theorem forall_nodes_node {P : Derivation ρ → Prop} {conclusion : Judgment} {rule : ρ}
    {premises : List (Premise ρ)} :
    (∀ n ∈ (node conclusion rule premises).nodes, P n) ↔
      P (node conclusion rule premises) ∧
        ∀ d, .derivation d ∈ premises → ∀ n ∈ d.nodes, P n := by
  simp only [nodes_node, List.forall_mem_cons, Premise.mem_nodesOf]
  refine and_congr_right fun _ => ⟨fun h d member n below => h n ⟨d, member, below⟩, ?_⟩
  rintro h n ⟨d, member, below⟩
  exact h d member n below

end Derivation

end ErrorML
