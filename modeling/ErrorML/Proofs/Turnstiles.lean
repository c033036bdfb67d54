import ErrorML.Proofs.OlderBindings
import ErrorML.Proofs.Reproving

namespace ErrorML

/-- How an environment is written in the bare style and with a turnstile. It is left out in the one
exactly if it is empty in the other. -/
inductive Env.Bared : Option Env → Option Env → Prop where
  | empty : Env.Bared none (some .empty)
  | bound {env : Env} (bound : env ≠ .empty) : Env.Bared (some env) (some env)

structure Judgment.Bared (j j' : Judgment) : Prop where
  env : Env.Bared j.env j'.env
  expr : j.expr = j'.expr
  value : j.value = j'.value

theorem Env.bared_written (env : Env) : Env.Bared (Style.bare.written env) (some env) := by
  cases env with
  | empty => exact .empty
  | push env name value => exact .bound (by simp)

section Alike

variable {ρ : Type} {related : Judgment → Judgment → Prop} {style : Style}

mutual

theorem Derivation.alike_inStyle : (d : Derivation ρ) →
    (∀ node ∈ d.nodes, related (node.conclusion.inStyle style) node.conclusion) →
      (d.inStyle style).Alike related d
  | .node conclusion rule premises, conclusions => by
    rw [Derivation.nodes_node, List.forall_mem_cons] at conclusions
    rw [Derivation.inStyle]
    exact .node rule conclusions.1 (Premise.allAlike_inStyle premises conclusions.2)

theorem Premise.alike_inStyle : (premise : Premise ρ) →
    (∀ node ∈ premise.nodes, related (node.conclusion.inStyle style) node.conclusion) →
      (premise.inStyle style).Alike related premise
  | .derivation d, conclusions => by
    rw [Premise.nodes_derivation] at conclusions
    rw [Premise.inStyle_derivation]
    exact .derivation (Derivation.alike_inStyle d conclusions)
  | .fact f, _ => by
    rw [Premise.inStyle_fact]
    exact .fact f

theorem Premise.allAlike_inStyle : (premises : List (Premise ρ)) →
    (∀ node ∈ Premise.nodesOf premises, related (node.conclusion.inStyle style) node.conclusion) →
      Premise.AllAlike related (Premise.allInStyle style premises) premises
  | [], _ => by
    rw [Premise.allInStyle_nil]
    exact .nil
  | premise :: premises, conclusions => by
    rw [Premise.nodesOf_cons, List.forall_mem_append] at conclusions
    rw [Premise.allInStyle_cons]
    exact .cons (Premise.alike_inStyle premise conclusions.1)
      (Premise.allAlike_inStyle premises conclusions.2)

end

end Alike

variable {env : Env} {e : Expr} {d : Derivation Rule}

theorem Derives.bared (h : Derives .turnstile env e d) :
    (d.conclusion.inStyle .bare).Bared d.conclusion := by
  rw [h.conclusion_eq]
  exact ⟨env.bared_written, rfl, rfl⟩

theorem Derives.alike_bared (h : Derives .turnstile env e d) :
    (d.inStyle .bare).Alike Judgment.Bared d := by
  refine d.alike_inStyle fun node member => ?_
  obtain ⟨env, e, derives⟩ := h.nodes node member
  exact derives.bared

/-- With a turnstile or without one, a program that is run in no environment gives derivations of
one shape, with the same rules and facts and with judgments that differ only in the turnstile before
an empty environment. Or both runs fail with the same error, or neither comes to an end. -/
theorem infer_bare_alike (bound : Nat) (e : Expr) :
    (∃ d d', infer bound .bare .empty e = .ok d ∧ infer bound .turnstile .empty e = .ok d' ∧
      d.Alike Judgment.Bared d') ∨
    (∃ err, infer bound .bare .empty e = .error err ∧
      infer bound .turnstile .empty e = .error err) ∨
    infer bound .bare .empty e = .exhausted ∧ infer bound .turnstile .empty e = .exhausted := by
  rw [infer_inStyle bound .turnstile .bare]
  cases run : infer bound .turnstile .empty e with
  | ok d =>
    have derives := Derives.of_infer run
    exact .inl ⟨d.inStyle .bare, d, rfl, rfl, derives.alike_bared⟩
  | error err => exact .inr (.inl ⟨err, rfl, rfl⟩)
  | exhausted => exact .inr (.inr ⟨rfl, rfl⟩)

end ErrorML
