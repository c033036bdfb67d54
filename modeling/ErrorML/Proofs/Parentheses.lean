import ErrorML.Proofs.Reading.Judgment

namespace ErrorML

open Grammar

def parens (text : List Char) : Nat := text.count '('

@[simp] theorem parens_cons (c : Char) (text : List Char) :
    parens (c :: text) = parens text + if c = '(' then 1 else 0 := by
  simp [parens, List.count_cons]

@[simp] theorem parens_append (front back : List Char) :
    parens (front ++ back) = parens front + parens back :=
  List.count_append

@[simp] theorem parens_toString (n : Nat) : parens (toString n).toList = 0 :=
  List.count_eq_zero.2 fun member => absurd (isDigit_of_mem_toString member) (by decide)

@[simp] theorem parens_integerText (n : Int64) : parens (integerText n).toList = 0 :=
  List.count_eq_zero.2 fun member => absurd (mem_integerText member) (by decide)

namespace Expr

variable {e : Expr} {j k : Nat}

def parens (place : Nat) (e : Expr) : Nat := ErrorML.parens (e.textAt place).toList

theorem parens_of_le (strong : k ≤ e.strength) :
    e.parens k = ErrorML.parens e.text.toList := by
  rw [parens, textAt_of_le strong]

theorem parens_of_lt (weak : e.strength < k) :
    e.parens k = ErrorML.parens e.text.toList + 1 := by
  have closing : ErrorML.parens ")".toList = 0 := rfl
  have opening : ErrorML.parens "(".toList = 1 := rfl
  rw [parens, textAt_of_lt weak, String.toList_append, String.toList_append, parens_append,
    parens_append, opening, closing]
  omega

theorem parens_mono (le : j ≤ k) : e.parens j ≤ e.parens k := by
  by_cases strong : k ≤ e.strength
  · have bare := parens_of_le strong
    have weaker := parens_of_le (Nat.le_trans le strong)
    omega
  · have wrapped := parens_of_lt (Nat.lt_of_not_le strong)
    by_cases held : j ≤ e.strength
    · have bare := parens_of_le held
      omega
    · have weaker := parens_of_lt (Nat.lt_of_not_le held)
      omega

theorem parens_le_succ (place : Nat) : e.parens place ≤ e.parens 0 + 1 := by
  have anywhere := parens_of_le (Nat.zero_le e.strength)
  by_cases strong : place ≤ e.strength
  · have bare := parens_of_le strong
    omega
  · have wrapped := parens_of_lt (Nat.lt_of_not_le strong)
    omega

section Forms

variable (name : String) (op : Operator) (left right condition thenBranch elseBranch : Expr)
  (bound body function argument : Expr)

theorem parens_binary :
    (binary op left right).parens op.strength =
      left.parens op.strength + right.parens (op.strength + 1) := by
  have sign : ErrorML.parens op.symbol.toList = 0 := by cases op <;> rfl
  have strong : op.strength ≤ (binary op left right).strength := Nat.le_refl _
  rw [parens_of_le strong, text_binary]
  simp [parens, sign]

theorem parens_app : (app function argument).parens 4 = function.parens 4 + argument.parens 6 := by
  have strong : 4 ≤ (app function argument).strength := Nat.le_refl _
  rw [parens_of_le strong, text_app]
  simp [parens]

theorem parens_int {n : Int64} (strong : k ≤ (int n).strength) : (int n).parens k = 0 := by
  rw [parens_of_le strong]
  exact parens_integerText n

theorem parens_index (i : Nat) : (index i).parens 6 = 0 := by
  change ErrorML.parens ("#" ++ toString i).toList = 0
  rw [String.toList_append, parens_append, parens_toString]
  rfl

theorem parens_ite :
    (ite condition thenBranch elseBranch).parens 0 =
      condition.parens 0 + thenBranch.parens 0 + elseBranch.parens 0 := by
  rw [parens_of_le (Nat.zero_le _), text_ite]
  simp [parens, text, Nat.add_assoc]

theorem parens_letIn :
    (letIn name bound body).parens 0 =
      ErrorML.parens name.toList + bound.parens 0 + body.parens 0 := by
  rw [parens_of_le (Nat.zero_le _), text_letIn]
  simp [parens, text, Nat.add_assoc]

theorem parens_letRec :
    (letRec name bound body).parens 0 =
      ErrorML.parens name.toList + bound.parens 0 + body.parens 0 := by
  rw [parens_of_le (Nat.zero_le _), text_letRec]
  simp [parens, text, Nat.add_assoc]

theorem parens_fn : (fn name body).parens 0 = ErrorML.parens name.toList + body.parens 0 := by
  rw [parens_of_le (Nat.zero_le _), text_fn]
  simp [parens, text]

end Forms

end Expr

namespace Grammar

variable {k : Nat} {ts : List Token} {e : Expr} {input rest : List Char}

def Token.parens : List Token → Nat
  | [] => 0
  | t :: ts => ErrorML.parens t.text + Token.parens ts

@[simp] theorem Token.parens_append (ts us : List Token) :
    Token.parens (ts ++ us) = Token.parens ts + Token.parens us := by
  induction ts with
  | nil => simp [parens]
  | cons t ts ih => simp [parens, ih, Nat.add_assoc]

theorem Token.Binds.text {b : Token} {name : String} (h : b.Binds name) : b.text = name.toList := by
  cases h <;> rfl

/-- The grammar asks for the same strength in each place as the writing does, so that a derivation
has all the parentheses of the writing, and the redundant ones. -/
theorem Sentence.parens_le (h : Sentence k ts e) : e.parens k ≤ Token.parens ts := by
  induction h with
  | letIn binder _ _ inner outer =>
    rw [Expr.parens_letIn, ← binder.text]
    simp only [Token.parens, Token.parens_append, List.cons_append]
    omega
  | letRec binder _ _ inner outer =>
    rw [Expr.parens_letRec, ← binder.text]
    simp only [Token.parens, Token.parens_append, List.cons_append]
    omega
  | fn binder _ inner =>
    rw [Expr.parens_fn, ← binder.text]
    simp only [Token.parens]
    omega
  | ite _ _ _ test yes no =>
    rw [Expr.parens_ite]
    simp only [Token.parens, Token.parens_append, List.cons_append]
    omega
  | binary op _ _ first second =>
    rw [Expr.parens_binary]
    simp only [Token.parens, Token.parens_append]
    omega
  | app _ _ first second =>
    rw [Expr.parens_app, Token.parens_append]
    exact Nat.add_le_add first second
  | negative numeral fits =>
    have strong (v : Int64) : 5 ≤ (Expr.int v).strength := by
      rw [Expr.strength]
      split <;> omega
    rw [Expr.parens_int (strong _)]
    exact Nat.zero_le _
  | @parenthesized ts e _ inner =>
    have opening : ErrorML.parens (Token.symbol "(").text = 1 := rfl
    have needed := Expr.parens_le_succ (e := e) 6
    simp only [Token.parens, Token.parens_append, List.cons_append, opening]
    omega
  | @number digits n v numeral fits =>
    have value := int64?_eq_some_iff.1 fits
    have strong : (Expr.int v).strength = 6 := by rw [Expr.strength, if_neg (by omega)]
    rw [Expr.parens_int (Nat.le_of_eq strong.symm)]
    exact Nat.zero_le _
  | bool b => cases b <;> decide
  | error => decide
  | index =>
    rw [Expr.parens_index]
    exact Nat.zero_le _
  | var identifier => exact Nat.le_refl _
  | unit _ ih => exact Nat.le_trans (Expr.parens_mono (Nat.le_succ _)) ih

theorem Spells.parens_le (spells : Spells ts input rest) :
    Token.parens ts ≤ ErrorML.parens input := by
  induction ts generalizing input with
  | nil => exact Nat.zero_le _
  | cons t ts ih =>
    obtain ⟨middle, ⟨gap, rfl, -⟩, others⟩ := spells
    have later := ih others
    simp only [Token.parens, ErrorML.parens_append]
    omega

end Grammar

/-- An expression is written with the fewest parentheses: no text that is read as it has fewer. -/
theorem parens_text_le (source : String) (e : Expr) (parsed : Expr.parse source = .ok e) :
    parens e.text.toList ≤ parens source.toList := by
  obtain ⟨ts, sentence, spells⟩ := parse_expr_iff.1 parsed
  obtain ⟨gap, whole, -⟩ := exists_gap source.toList
  calc parens e.text.toList
    _ ≤ Token.parens ts := sentence.parens_le
    _ ≤ parens (skip source.toList) := spells.parens_le
    _ ≤ parens (gap ++ skip source.toList) := by
      rw [parens_append]
      exact Nat.le_add_left _ _
    _ = parens source.toList := by rw [← whole]

theorem parens_text_le_redundant :
    let e := Expr.app (.fn "x" (.binary .minus (.var "x") (.binary .plus (.int 1) (.int 2))))
      (.int (-1))
    Expr.parse "((fun x -> (x) - ((1) + 2)) (((-1))))" = .ok e ∧
      e.text = "(fun x -> x - (1 + 2)) (-1)" ∧
      parens e.text.toList ≤ parens "((fun x -> (x) - ((1) + 2)) (((-1))))".toList := by
  intro e
  have parsed : Expr.parse "((fun x -> (x) - ((1) + 2)) (((-1))))" = .ok e := by decide +kernel
  exact ⟨parsed, by decide +kernel, parens_text_le _ _ parsed⟩

end ErrorML
