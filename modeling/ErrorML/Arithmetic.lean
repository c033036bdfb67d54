import ErrorML.Expr.Text
import ErrorML.Value.Basic

namespace ErrorML

def int64? (n : Int) : Option Int64 :=
  if Int64.minValue.toInt ≤ n ∧ n ≤ Int64.maxValue.toInt then some (Int64.ofInt n) else none

theorem int64?_eq_some_iff {n : Int} {w : Int64} : int64? n = some w ↔ w.toInt = n := by
  unfold int64?
  constructor
  · intro h
    split at h
    next fits =>
      cases h
      exact Int64.toInt_ofInt_of_le fits.1 (Int.lt_of_le_of_lt fits.2 (by decide))
    next => cases h
  · rintro rfl
    have low := w.minValue_le_toInt
    have high := w.toInt_le
    rw [if_pos ⟨low, high⟩, Int64.ofInt_toInt]

theorem int64?_eq_none_iff {n : Int} :
    int64? n = none ↔ ¬(Int64.minValue.toInt ≤ n ∧ n ≤ Int64.maxValue.toInt) := by
  unfold int64?
  split <;> simp_all

inductive Fact where
  | plus (left right result : Int64)
  | minus (left right result : Int64)
  | times (left right result : Int64)
  | less (left right : Int64) (result : Bool)
deriving DecidableEq

namespace Fact

def compute? (op : Operator) (left right : Int64) : Option Fact :=
  match op with
  | .plus => (int64? (left.toInt + right.toInt)).map (.plus left right)
  | .minus => (int64? (left.toInt - right.toInt)).map (.minus left right)
  | .times => (int64? (left.toInt * right.toInt)).map (.times left right)
  | .less => some (.less left right (decide (left.toInt < right.toInt)))

def value : Fact → Value
  | .plus _ _ result | .minus _ _ result | .times _ _ result => .int result
  | .less _ _ result => .bool result

def operator : Fact → Operator
  | .plus _ _ _ => .plus
  | .minus _ _ _ => .minus
  | .times _ _ _ => .times
  | .less _ _ _ => .less

def ruleName (fact : Fact) : String := "B-" ++ fact.operator.name

def text : Fact → String
  | .plus left right result =>
    integerText left ++ " plus " ++ integerText right ++ " is " ++ integerText result
  | .minus left right result =>
    integerText left ++ " minus " ++ integerText right ++ " is " ++ integerText result
  | .times left right result =>
    integerText left ++ " times " ++ integerText right ++ " is " ++ integerText result
  | .less left right result =>
    integerText left ++ " less than " ++ integerText right ++ " is " ++ booleanText result

theorem compute?_less (left right : Int64) :
    compute? .less left right = some (.less left right (decide (left.toInt < right.toInt))) := rfl

end Fact

end ErrorML
