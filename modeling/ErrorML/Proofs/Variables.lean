import ErrorML.Proofs.FaultFree
import ErrorML.Proofs.Styles

namespace ErrorML

def Env.popped : Nat → Env → Option Env
  | 0, env => some env
  | count + 1, env => env.pop?.bind (popped count)

/-- The first binding with this name, from the newest one down, is at this position and has this
value. -/
structure Env.FirstAt (env : Env) (name : String) (position : Nat) (value : Value) : Prop where
  place : env.toList[position]? = some (name, value)
  first : ∀ earlier < position, ∀ other, env.toList[earlier]? ≠ some (name, other)

namespace Env

variable {env : Env} {bound name : String} {value newest : Value} {position : Nat}

theorem popped_push_succ (count : Nat) (env : Env) (name : String) (value : Value) :
    (env.push name value).popped (count + 1) = env.popped count := rfl

theorem firstAt_push_zero (env : Env) (name : String) (value : Value) :
    (env.push name value).FirstAt name 0 value :=
  ⟨rfl, fun _ less => absurd less (Nat.not_lt_zero _)⟩

theorem FirstAt.push (h : env.FirstAt name position value) (other : bound ≠ name) :
    (env.push bound newest).FirstAt name (position + 1) value := by
  refine ⟨h.place, fun earlier less result => ?_⟩
  cases earlier with
  | zero =>
    intro same
    cases same
    exact other rfl
  | succ earlier => exact h.first earlier (Nat.lt_of_succ_lt_succ less) result

theorem FirstAt.nth? (h : env.FirstAt name position value) :
    env.nth? (position + 1) = some value := by
  rw [nth?_eq, h.place]
  rfl

theorem FirstAt.pop (h : (env.push bound newest).FirstAt name (position + 1) value) :
    bound ≠ name ∧ env.FirstAt name position value := by
  refine ⟨?_, h.place, fun earlier less => h.first (earlier + 1) (Nat.succ_lt_succ less)⟩
  rintro rfl
  exact h.first 0 (Nat.succ_pos position) newest rfl

theorem lookup?_eq_some_iff : env.lookup? name = some value ↔
    ∃ position, env.FirstAt name position value := by
  induction env with
  | empty =>
    constructor
    · rintro ⟨⟩
    · rintro ⟨position, ⟨⟩, -⟩
  | push env bound newest ih =>
    rw [lookup?_push]
    split
    · rename_i same
      subst same
      constructor
      · rintro ⟨⟩
        exact ⟨0, firstAt_push_zero env bound _⟩
      · rintro ⟨position, first⟩
        cases position with
        | zero =>
          cases first.place
          rfl
        | succ position => exact absurd rfl first.pop.1
    · rename_i other
      rw [ih]
      constructor
      · rintro ⟨position, first⟩
        exact ⟨position + 1, first.push other⟩
      · rintro ⟨position, first⟩
        cases position with
        | zero =>
          cases first.place
          exact absurd rfl other
        | succ position => exact ⟨position, first.pop.2⟩

end Env

/-- A derivation for a variable that passes the bindings above a position. It has one node for each
binding down to that position, from the root on, and each node has the next one for its only
premise. -/
structure Derivation.Descends (env : Env) (name : String) (position : Nat)
    (d : Derivation Rule) : Prop where
  length : d.nodes.length = position + 1
  node : ∀ i ≤ position, ∃ below, env.popped i = some below ∧
    d.nodes[i]? = some (.node ⟨some below, .var name, d.value⟩
      (if i = position then .varTop else .varBelow)
      (d.nodes[i + 1]?.map Premise.derivation).toList)

variable {style : Style} {env : Env} {name : String} {d : Derivation Rule}

theorem Derivation.descends_top (style : Style) (env : Env) (name : String) (value : Value) :
    (node ⟨style.written (env.push name value), .var name, value⟩ .varTop []).Descends
      (env.push name value) name 0 := by
  constructor
  · simp [nodes_node]
  · intro i le
    cases Nat.le_zero.1 le
    exact ⟨_, rfl, by simp [nodes_node, Style.written_push]⟩

theorem Derivation.Descends.push {below : Derivation Rule} {position : Nat}
    (h : below.Descends env name position) (style : Style) (bound : String) (newest : Value) :
    (Derivation.node ⟨style.written (env.push bound newest), .var name, below.value⟩ .varBelow
      [.derivation below]).Descends (env.push bound newest) name (position + 1) := by
  have root : below.nodes[0]? = some below := by
    cases below
    simp [nodes_node]
  constructor
  · simp [nodes_node, h.length]
  · intro i le
    cases i with
    | zero => exact ⟨_, rfl, by simp [nodes_node, Style.written_push, root]⟩
    | succ i =>
      obtain ⟨older, popped, node⟩ := h.node i (Nat.le_of_succ_le_succ le)
      refine ⟨older, by rw [Env.popped_push_succ, popped], ?_⟩
      simpa [nodes_node] using node

theorem Derives.descends (h : Derives style env (.var name) d) :
    ∃ position, env.FirstAt name position d.value ∧ d.Descends env name position := by
  induction env generalizing d with
  | empty => cases h
  | push env bound newest ih =>
    cases h with
    | varTop =>
      exact ⟨0, env.firstAt_push_zero name newest,
        Derivation.descends_top style env name newest⟩
    | varBelow other premise =>
      obtain ⟨position, first, below⟩ := ih premise
      exact ⟨position + 1, first.push other, below.push style bound newest⟩

theorem inferVar_of_lookup?_eq_none (h : env.lookup? name = none) :
    inferVar style name env = .error (.stuck (.unbound name)) := by
  induction env with
  | empty => rfl
  | push env bound newest ih =>
    rw [Env.lookup?_push] at h
    split at h
    · cases h
    · rename_i other
      rw [inferVar, if_neg other, ih h]

/-- Inference for a variable succeeds exactly if a look-up does, and with its value. The derivation
passes the bindings one by one down to the first one with the name, which an index finds as well.
Where there is no such binding, the name is reported as unbound, and so it is by strict
evaluation. -/
theorem infer_var_lookup (bound : Nat) (style : Style) (env : Env) (name : String) :
    (∀ value, (∃ d, infer (bound + 1) style env (.var name) = .ok d ∧ d.value = value) ↔
      env.lookup? name = some value) ∧
    (∀ d, infer (bound + 1) style env (.var name) = .ok d →
      ∃ position, env.FirstAt name position d.value ∧ env.nth? (position + 1) = some d.value ∧
        d.Descends env name position) ∧
    (env.lookup? name = none →
      infer (bound + 1) style env (.var name) = .error (.stuck (.unbound name)) ∧
        evaluate (bound + 1) env (.var name) = .error (.stuck (.unbound name))) := by
  refine ⟨fun value => ⟨?_, fun found => ?_⟩, fun d found => ?_, fun none => ⟨?_, ?_⟩⟩
  · rintro ⟨d, found, rfl⟩
    obtain ⟨position, first, -⟩ := (Derives.of_infer found).descends
    exact Env.lookup?_eq_some_iff.2 ⟨position, first⟩
  · obtain ⟨d, derives, rfl, -⟩ :
        ∃ d, Derives style env (.var name) d ∧ d.value = value ∧ d.FaultFree :=
      lookup?_derives found
    exact ⟨d, by rw [infer, derives.inferVar_eq]; rfl, rfl⟩
  · obtain ⟨position, first, descends⟩ := (Derives.of_infer found).descends
    exact ⟨position, first, first.nth?, descends⟩
  · rw [infer, inferVar_of_lookup?_eq_none none]
    rfl
  · rw [evaluate_var, none]
    rfl

end ErrorML
