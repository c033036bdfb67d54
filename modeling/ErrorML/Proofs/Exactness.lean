import ErrorML.Proofs.Parts
import ErrorML.Proofs.SideConditions

namespace ErrorML

def FitsWord (n : Int) : Prop := Int64.minValue.toInt ≤ n ∧ n ≤ Int64.maxValue.toInt

instance (n : Int) : Decidable (FitsWord n) := inferInstanceAs (Decidable (_ ∧ _))

def Operator.exact : Operator → Int → Int → Int
  | .plus, m, n => m + n
  | .minus, m, n => m - n
  | .times, m, n => m * n
  | .less, _, _ => 0

namespace Expr

inductive Arithmetic : Expr → Prop where
  | int (n : Int64) : Arithmetic (.int n)
  | binary {op : Operator} {left right : Expr} (integral : op ≠ .less) (first : left.Arithmetic)
      (second : right.Arithmetic) : Arithmetic (.binary op left right)

def exact : Expr → Int
  | .int n => n.toInt
  | .binary op left right => op.exact left.exact right.exact
  | _ => 0

/-- The first part, from left to right and inner ones before outer ones, whose exact value does not
fit in a word. -/
def firstOverflow? (e : Expr) : Option Expr :=
  e.parts.find? fun part => decide ¬FitsWord part.exact

theorem firstOverflow?_int (n : Int64) : (int n).firstOverflow? = none := by
  have fits : FitsWord (int n).exact := ⟨n.minValue_le_toInt, n.toInt_le⟩
  simp [firstOverflow?, parts, fits]

theorem firstOverflow?_binary (op : Operator) (left right : Expr) :
    (binary op left right).firstOverflow? = left.firstOverflow?.or (right.firstOverflow?.or
      (if FitsWord (binary op left right).exact then none else some (binary op left right))) := by
  simp [firstOverflow?, parts, List.find?_append]

theorem firstOverflow?_eq_none_iff {e : Expr} :
    e.firstOverflow? = none ↔ ∀ part ∈ e.parts, FitsWord part.exact := by
  simp [firstOverflow?]

theorem length_parts_binary (op : Operator) (left right : Expr) :
    (binary op left right).parts.length = left.parts.length + right.parts.length + 1 := by
  simp [parts]
  omega

end Expr

namespace Fact

variable {op : Operator} {m n : Int64}

theorem compute?_value (integral : op ≠ .less) (m n : Int64) :
    (compute? op m n).map value = (int64? (op.exact m.toInt n.toInt)).map .int := by
  cases op with
  | less => exact absurd rfl integral
  | plus | minus | times => simp [compute?, Operator.exact, Function.comp_def, value]

theorem exists_of_fitsWord (integral : op ≠ .less) (fits : FitsWord (op.exact m.toInt n.toInt)) :
    ∃ fact result, compute? op m n = some fact ∧ fact.value = .int result ∧
      result.toInt = op.exact m.toInt n.toInt := by
  have computed := compute?_value integral m n
  cases word : int64? (op.exact m.toInt n.toInt) with
  | none => exact absurd fits (int64?_eq_none_iff.1 word)
  | some result =>
    rw [word, Option.map_some, Option.map_eq_some_iff] at computed
    obtain ⟨fact, computed, value⟩ := computed
    exact ⟨fact, result, computed, value, int64?_eq_some_iff.1 word⟩

theorem compute?_eq_none (integral : op ≠ .less)
    (large : ¬FitsWord (op.exact m.toInt n.toInt)) : compute? op m n = none := by
  have computed := compute?_value integral m n
  rwa [int64?_eq_none_iff.2 large, Option.map_none, Option.map_eq_none_iff] at computed

end Fact

/-- Strict evaluation and inference both come to this number, or get stuck for this reason. -/
def RunsTo (bound : Nat) (style : Style) (env : Env) (e : Expr) : Except Stuck Int64 → Prop
  | .ok n => evaluate bound env e = .ok (.int n) ∧
      ∃ d, infer bound style env e = .ok d ∧ d.value = .int n
  | .error reason => evaluate bound env e = .error (.stuck reason) ∧
      infer bound style env e = .error (.stuck reason)

namespace RunsTo

variable {bound : Nat} {style : Style} {env : Env} {e left right : Expr} {op : Operator}
  {m n : Int64} {reason : Stuck}

theorem mono {larger : Nat} {result : Except Stuck Int64} (h : RunsTo bound style env e result)
    (le : bound ≤ larger) : RunsTo larger style env e result := by
  have evaluates := evaluate_mono le env e
  have infers := infer_mono le style env e
  cases result with
  | ok n =>
    obtain ⟨evaluated, d, inferred, number⟩ := h
    exact ⟨evaluates.eq_ok evaluated, d, infers.eq_ok inferred, number⟩
  | error reason => exact ⟨evaluates.eq_error h.1, infers.eq_error h.2⟩

theorem of_left (first : RunsTo bound style env left (.error reason)) :
    RunsTo (bound + 1) style env (.binary op left right) (.error reason) := by
  obtain ⟨evaluated, inferred⟩ := first
  constructor
  · rw [evaluate, evaluated, Outcome.error_bind]
  · rw [infer, inferred, Outcome.error_bind]

theorem of_right (first : RunsTo bound style env left (.ok m))
    (second : RunsTo bound style env right (.error reason)) :
    RunsTo (bound + 1) style env (.binary op left right) (.error reason) := by
  obtain ⟨evaluated, d, inferred, number⟩ := first
  obtain ⟨evaluated', inferred'⟩ := second
  constructor
  · rw [evaluate, evaluated, evaluated', Outcome.ok_bind, Outcome.error_bind]
  · simp only [infer, inferred, Outcome.ok_bind, number, Fault.ofLeft?, Value.asInt?_int, inferred',
      Outcome.error_bind]

theorem of_overflow (first : RunsTo bound style env left (.ok m))
    (second : RunsTo bound style env right (.ok n)) (large : Fact.compute? op m n = none) :
    RunsTo (bound + 1) style env (.binary op left right) (.error (.overflow op m n)) := by
  obtain ⟨evaluated, d, inferred, number⟩ := first
  obtain ⟨evaluated', d', inferred', number'⟩ := second
  constructor
  · rw [evaluate_binary evaluated evaluated', applyOperator_eq_overflow large]
    rfl
  · rw [infer_binary inferred number inferred' number', large]
    rfl

theorem of_fact {fact : Fact} {result : Int64} (first : RunsTo bound style env left (.ok m))
    (second : RunsTo bound style env right (.ok n)) (computed : Fact.compute? op m n = some fact)
    (value : fact.value = .int result) :
    RunsTo (bound + 1) style env (.binary op left right) (.ok result) := by
  obtain ⟨evaluated, d, inferred, number⟩ := first
  obtain ⟨evaluated', d', inferred', number'⟩ := second
  have applied := applyOperator_eq_ok_iff.2
    ⟨m, n, fact, rfl, rfl, Fact.exact_iff.2 ⟨computed, value⟩⟩
  constructor
  · rw [evaluate_binary evaluated evaluated', applied]
    rfl
  · rw [infer_binary inferred number inferred' number', computed]
    exact ⟨_, rfl, value⟩

end RunsTo

variable {e : Expr}

theorem Expr.Arithmetic.runsTo_exact (arithmetic : e.Arithmetic) (fine : e.firstOverflow? = none)
    (style : Style) (env : Env) :
    ∃ n, n.toInt = e.exact ∧ RunsTo e.parts.length style env e (.ok n) := by
  induction arithmetic with
  | int n => exact ⟨n, rfl, rfl, _, rfl, rfl⟩
  | @binary op left right integral _ _ ih₁ ih₂ =>
    simp only [firstOverflow?_binary, Option.or_eq_none_iff] at fine
    obtain ⟨fine₁, fine₂, whole⟩ := fine
    obtain ⟨m, left_eq, first⟩ := ih₁ fine₁
    obtain ⟨n, right_eq, second⟩ := ih₂ fine₂
    have fits : FitsWord (Expr.binary op left right).exact := by simpa using whole
    rw [Expr.exact, ← left_eq, ← right_eq] at fits
    obtain ⟨fact, result, computed, value, result_eq⟩ := Fact.exists_of_fitsWord integral fits
    rw [length_parts_binary, Expr.exact, ← left_eq, ← right_eq]
    exact ⟨result, result_eq,
      .of_fact (first.mono (by omega)) (second.mono (by omega)) computed value⟩

theorem Expr.Arithmetic.runsTo_overflow (arithmetic : e.Arithmetic) {part : Expr}
    (found : e.firstOverflow? = some part) (style : Style) (env : Env) :
    ∃ op left right m n, part = .binary op left right ∧ m.toInt = left.exact ∧
      n.toInt = right.exact ∧ RunsTo e.parts.length style env e (.error (.overflow op m n)) := by
  induction arithmetic with
  | int n =>
    rw [firstOverflow?_int] at found
    cases found
  | @binary op left right integral arithmetic₁ arithmetic₂ ih₁ ih₂ =>
    rw [length_parts_binary]
    simp only [firstOverflow?_binary, Option.or_eq_some_iff] at found
    rcases found with inLeft | ⟨fine₁, inRight | ⟨fine₂, whole⟩⟩
    · obtain ⟨op', l, r, m, n, same, l_eq, r_eq, runs⟩ := ih₁ inLeft
      exact ⟨op', l, r, m, n, same, l_eq, r_eq, .of_left (runs.mono (by omega))⟩
    · obtain ⟨_, -, first⟩ := arithmetic₁.runsTo_exact fine₁ style env
      obtain ⟨op', l, r, m, n, same, l_eq, r_eq, runs⟩ := ih₂ inRight
      exact ⟨op', l, r, m, n, same, l_eq, r_eq,
        .of_right (first.mono (by omega)) (runs.mono (by omega))⟩
    · obtain ⟨m, left_eq, first⟩ := arithmetic₁.runsTo_exact fine₁ style env
      obtain ⟨n, right_eq, second⟩ := arithmetic₂.runsTo_exact fine₂ style env
      obtain ⟨large, rfl⟩ :
          ¬FitsWord (Expr.binary op left right).exact ∧ Expr.binary op left right = part := by
        simpa using whole
      rw [Expr.exact, ← left_eq, ← right_eq] at large
      have computed := Fact.compute?_eq_none integral large
      exact ⟨op, left, right, m, n, rfl, left_eq, right_eq,
        .of_overflow (first.mono (by omega)) (second.mono (by omega)) computed⟩

/-- Arithmetic is exact or reported. If the exact values of all parts fit in words, both ways to run
the expression give its exact value. Otherwise both get stuck, at the first part whose value does
not fit and with the exact values of its operands. -/
theorem arithmetic_exact_or_overflow (arithmetic : e.Arithmetic) (style : Style) (env : Env)
    {bound : Nat} (enough : e.parts.length ≤ bound) :
    ((∀ part ∈ e.parts, FitsWord part.exact) →
      ∃ n, n.toInt = e.exact ∧ evaluate bound env e = .ok (.int n) ∧
        ∃ d, infer bound style env e = .ok d ∧ d.value = .int n) ∧
    ((∃ part ∈ e.parts, ¬FitsWord part.exact) →
      ∃ op left right m n, e.firstOverflow? = some (.binary op left right) ∧
        m.toInt = left.exact ∧ n.toInt = right.exact ∧
        evaluate bound env e = .error (.stuck (.overflow op m n)) ∧
        infer bound style env e = .error (.stuck (.overflow op m n))) := by
  constructor
  · intro fine
    obtain ⟨n, n_eq, runs⟩ :=
      arithmetic.runsTo_exact (Expr.firstOverflow?_eq_none_iff.2 fine) style env
    exact ⟨n, n_eq, runs.mono enough⟩
  · rintro ⟨part, member, large⟩
    cases found : e.firstOverflow? with
    | none => exact absurd (Expr.firstOverflow?_eq_none_iff.1 found part member) large
    | some first =>
      obtain ⟨op, left, right, m, n, rfl, left_eq, right_eq, runs⟩ :=
        arithmetic.runsTo_overflow found style env
      exact ⟨op, left, right, m, n, rfl, left_eq, right_eq, runs.mono enough⟩

/-- `1 + min * -1 - (max + 1)` for the least and the greatest word: the product does not fit, and
comes before the sum that does not fit either. -/
theorem arithmetic_exact_or_overflow_product :
    let product := Expr.binary .times (.int Int64.minValue) (.int (-1))
    let e := Expr.binary .minus (.binary .plus (.int 1) product)
      (.binary .plus (.int Int64.maxValue) (.int 1))
    e.Arithmetic ∧ e.parts.length ≤ 9 ∧ (∃ part ∈ e.parts, ¬FitsWord part.exact) ∧
      e.firstOverflow? = some product ∧
      evaluate 9 .empty e = .error (.stuck (.overflow .times Int64.minValue (-1))) ∧
      infer 9 .turnstile .empty e = .error (.stuck (.overflow .times Int64.minValue (-1))) := by
  intro product e
  have arithmetic : e.Arithmetic :=
    .binary (by decide) (.binary (by decide) (.int _) (.binary (by decide) (.int _) (.int _)))
      (.binary (by decide) (.int _) (.int _))
  have enough : e.parts.length ≤ 9 := by decide
  have large : ∃ part ∈ e.parts, ¬FitsWord part.exact := ⟨product, by decide, by decide⟩
  have first : e.firstOverflow? = some product := by decide
  obtain ⟨op, left, right, m, n, found, left_eq, right_eq, evaluates, infers⟩ :=
    (arithmetic_exact_or_overflow arithmetic .turnstile .empty enough).2 large
  obtain ⟨rfl, rfl, rfl⟩ : .times = op ∧ .int Int64.minValue = left ∧ .int (-1) = right := by
    simpa [product] using first.symm.trans found
  cases Int64.toInt_inj.1 left_eq
  cases Int64.toInt_inj.1 right_eq
  exact ⟨arithmetic, enough, large, first, evaluates, infers⟩

end ErrorML
