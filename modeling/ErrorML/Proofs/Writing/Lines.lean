import ErrorML.Derivation.Text
import ErrorML.Proofs.Reading.Expr

namespace ErrorML

open Grammar

def Expr.allNames : Expr → List String
  | .int _ | .bool _ | .error | .index _ => []
  | .var name => [name]
  | .binary _ left right => left.allNames ++ right.allNames
  | .ite condition thenBranch elseBranch =>
    condition.allNames ++ thenBranch.allNames ++ elseBranch.allNames
  | .letIn name bound body | .letRec name bound body => name :: bound.allNames ++ body.allNames
  | .fn param body => param :: body.allNames
  | .app function argument => function.allNames ++ argument.allNames

mutual

def Value.allNames : Value → List String
  | .int _ | .bool _ | .error => []
  | .closure env function => env.allNames ++ function.expr.allNames
  | .recClosure env name function => env.allNames ++ name :: function.expr.allNames

def Env.allNames : Env → List String
  | .empty => []
  | .push env name value => env.allNames ++ name :: value.allNames

end

def Judgment.allNames (j : Judgment) : List String :=
  (j.env.map Env.allNames).getD [] ++ j.expr.allNames ++ j.value.allNames

theorem newline_notMem_integerText (n : Int64) : '\n' ∉ (integerText n).toList :=
  fun member => absurd (mem_integerText member) (by decide)

theorem newline_notMem_booleanText (b : Bool) : '\n' ∉ (booleanText b).toList := by
  cases b <;> decide

theorem Expr.newline_mem_textAt {e : Expr} {place : Nat} :
    '\n' ∈ (e.textAt place).toList ↔ '\n' ∈ e.text.toList := by
  by_cases strong : place ≤ e.strength
  · rw [textAt_of_le strong]
  · rw [textAt_of_lt (Nat.lt_of_not_le strong)]
    simp

theorem Expr.newline_mem_text {e : Expr} :
    '\n' ∈ e.text.toList ↔ ∃ name ∈ e.allNames, '\n' ∈ name.toList := by
  induction e with
  | int n => exact iff_of_false (newline_notMem_integerText n) (by simp [allNames])
  | bool b => exact iff_of_false (newline_notMem_booleanText b) (by simp [allNames])
  | error => decide
  | var name => simp [allNames, text, textAt, wrap]
  | index i =>
    have digits : '\n' ∉ ("#" ++ toString i).toList := by
      rw [String.toList_append, List.mem_append]
      rintro (sharp | digit)
      · exact absurd sharp (by decide)
      · exact absurd (isDigit_of_mem_toString digit) (by decide)
    exact iff_of_false digits (by simp [allNames])
  | binary op left right ihl ihr =>
    have sign : '\n' ∉ op.symbol.toList := by cases op <;> decide
    simp [text_binary, allNames, newline_mem_textAt, ihl, ihr, sign, or_and_right, exists_or]
  | ite condition thenBranch elseBranch ihc iht ihe =>
    simp [text_ite, allNames, ihc, iht, ihe, or_and_right, exists_or]
  | letIn name bound body ihb ihr =>
    simp [text_letIn, allNames, ihb, ihr, or_and_right, exists_or]
  | letRec name bound body ihb ihr =>
    simp [text_letRec, allNames, ihb, ihr, or_and_right, exists_or]
  | fn param body ih => simp [text_fn, allNames, ih]
  | app function argument ihf iha =>
    simp [text_app, allNames, newline_mem_textAt, ihf, iha, or_and_right, exists_or]

mutual

theorem Value.newline_mem_text : (v : Value) →
    ('\n' ∈ v.text.toList ↔ ∃ name ∈ v.allNames, '\n' ∈ name.toList)
  | .int n => by
    rw [Value.text, Value.allNames]
    exact iff_of_false (newline_notMem_integerText n) (by simp)
  | .bool b => by
    rw [Value.text, Value.allNames]
    exact iff_of_false (newline_notMem_booleanText b) (by simp)
  | .error => by
    rw [Value.text, Value.allNames]
    decide
  | .closure env f => by
    rw [Value.text, Value.allNames, Function.text]
    simp [Env.newline_mem_text env, Expr.newline_mem_text, or_and_right, exists_or]
  | .recClosure env name f => by
    rw [Value.text, Value.allNames, Function.text]
    simp [Env.newline_mem_text env, Expr.newline_mem_text, or_and_right, exists_or]

theorem Env.newline_mem_text : (env : Env) →
    ('\n' ∈ env.text.toList ↔ ∃ name ∈ env.allNames, '\n' ∈ name.toList)
  | .empty => by
    rw [Env.text, Env.allNames]
    simp
  | .push .empty name v => by
    rw [Env.text_push_empty, Env.allNames, Env.allNames]
    simp [Value.newline_mem_text v]
  | .push (.push env older oldest) name v => by
    rw [Env.text_push_push, Env.allNames]
    simp [Env.newline_mem_text (.push env older oldest), Value.newline_mem_text v, or_and_right,
      exists_or]

end

theorem newline_mem_turnstileText {env : Option Env} :
    '\n' ∈ (turnstileText env).toList ↔
      ∃ name ∈ (env.map Env.allNames).getD [], '\n' ∈ name.toList := by
  match env with
  | none => simp [turnstileText]
  | some .empty => simp [turnstileText, Env.allNames]
  | some (.push env name v) => simp [turnstileText, Env.newline_mem_text]

theorem Judgment.newline_mem_text {j : Judgment} :
    '\n' ∈ j.text.toList ↔ ∃ name ∈ j.allNames, '\n' ∈ name.toList := by
  simp [text, allNames, newline_mem_turnstileText, Expr.newline_mem_text, Value.newline_mem_text,
    or_and_right, exists_or]

theorem Fact.newline_notMem_text (fact : Fact) : '\n' ∉ fact.text.toList := by
  cases fact <;> simp [text, newline_notMem_integerText, newline_notMem_booleanText]

theorem exists_cons_of_notMem {text : String} {c : Char} (nonempty : text ≠ "")
    (outside : c ∉ text.toList) : ∃ d more, text.toList = d :: more ∧ d ≠ c := by
  cases spelled : text.toList with
  | nil => exact absurd (String.toList_eq_nil_iff.1 spelled) nonempty
  | cons d more =>
    refine ⟨d, more, rfl, ?_⟩
    rintro rfl
    exact outside (spelled ▸ List.mem_cons_self)

theorem mem_of_isBinder {name : String} (named : isBinder name = true) {c : Char}
    (member : c ∈ name.toList) : isIdentifierChar c = true ∨ c = '.' := by
  rw [isBinder, Bool.or_eq_true, beq_iff_eq] at named
  rcases named with identifier | rfl
  · exact .inl (List.all_eq_true.1 (inside_of_isIdentifier identifier) c member)
  · exact .inr (List.mem_singleton.1 member)

theorem exists_cons_of_isBinder {name : String} (named : isBinder name = true) :
    ∃ c more, name.toList = c :: more ∧ (isIdentifierChar c = true ∨ c = '.') := by
  cases spelled : name.toList with
  | nil =>
    obtain rfl := String.toList_eq_nil_iff.1 spelled
    cases named
  | cons c more => exact ⟨c, more, rfl, mem_of_isBinder named (spelled ▸ List.mem_cons_self)⟩

theorem Env.exists_cons_text {env : Env} (nonempty : env ≠ .empty)
    (named : ∀ name ∈ env.allNames, isBinder name = true) :
    ∃ c more, env.text.toList = c :: more ∧ (isIdentifierChar c = true ∨ c = '.') := by
  induction env with
  | empty => exact absurd rfl nonempty
  | push env name v ih =>
    rw [allNames, List.forall_mem_append, List.forall_mem_cons] at named
    obtain ⟨older, newest, -⟩ := named
    cases env with
    | empty =>
      obtain ⟨c, more, spelled, inside⟩ := exists_cons_of_isBinder newest
      exact ⟨c, _, by simp only [text_push_empty, String.toList_append, spelled]; rfl, inside⟩
    | push env second oldValue =>
      obtain ⟨c, more, spelled, inside⟩ := ih (by simp) older
      exact ⟨c, _, by simp only [text_push_push, String.toList_append, spelled]; rfl, inside⟩

def Flush (text : String) : Prop := ∃ c more, text.toList = c :: more ∧ c ≠ ' '

theorem Flush.append {front : String} (h : Flush front) (back : String) :
    Flush (front ++ back) := by
  obtain ⟨c, more, spelled, visible⟩ := h
  exact ⟨c, more ++ back.toList, by rw [String.toList_append, spelled]; rfl, visible⟩

theorem flush_integerText (n : Int64) : Flush (integerText n) :=
  exists_cons_of_notMem (integerText_ne_empty n) fun member =>
    absurd (mem_integerText member) (by decide)

theorem ne_space_of_name {c : Char} (inside : isIdentifierChar c = true ∨ c = '.') : c ≠ ' ' := by
  rintro rfl
  exact absurd inside (by decide)

theorem flush_of_isBinder {name : String} (named : isBinder name = true) : Flush name := by
  obtain ⟨c, more, spelled, inside⟩ := exists_cons_of_isBinder named
  exact ⟨c, more, spelled, ne_space_of_name inside⟩

theorem Expr.flush_textAt {e : Expr} (h : Flush e.text) (place : Nat) :
    Flush (e.textAt place) := by
  by_cases strong : place ≤ e.strength
  · rwa [textAt_of_le strong]
  · have opening : Flush "(" := ⟨'(', _, rfl, by decide⟩
    rw [textAt_of_lt (Nat.lt_of_not_le strong)]
    exact (opening.append _).append _

theorem Expr.flush_text {e : Expr} (named : ∀ name ∈ e.allNames, isBinder name = true) :
    Flush e.text := by
  induction e with
  | int n => exact flush_integerText n
  | bool b => cases b <;> exact ⟨_, _, rfl, by decide⟩
  | error => exact ⟨'e', _, rfl, by decide⟩
  | var name => exact flush_of_isBinder (named name List.mem_cons_self)
  | index i =>
    have sharp : Flush "#" := ⟨'#', _, rfl, by decide⟩
    rw [text_index]
    exact sharp.append _
  | binary op left right ihl _ =>
    have first := ihl fun name member => named name (List.mem_append_left _ member)
    rw [text_binary]
    exact ((((flush_textAt first _).append _).append _).append _).append _
  | app function argument ihf _ =>
    have first := ihf fun name member => named name (List.mem_append_left _ member)
    rw [text_app]
    exact ((flush_textAt first _).append _).append _
  | ite condition thenBranch elseBranch _ _ _ =>
    have keyword : Flush "if " := ⟨'i', _, rfl, by decide⟩
    rw [text_ite]
    exact ((((keyword.append _).append _).append _).append _).append _
  | letIn name bound body _ _ =>
    have keyword : Flush "let " := ⟨'l', _, rfl, by decide⟩
    rw [text_letIn]
    exact ((((keyword.append _).append _).append _).append _).append _
  | letRec name bound body _ _ =>
    have keyword : Flush "let rec " := ⟨'l', _, rfl, by decide⟩
    rw [text_letRec]
    exact ((((keyword.append _).append _).append _).append _).append _
  | fn param body _ =>
    have keyword : Flush "fun " := ⟨'f', _, rfl, by decide⟩
    rw [text_fn]
    exact ((keyword.append _).append _).append _

theorem Env.flush_text {env : Env} (nonempty : env ≠ .empty)
    (named : ∀ name ∈ env.allNames, isBinder name = true) : Flush env.text := by
  obtain ⟨c, more, spelled, inside⟩ := Env.exists_cons_text nonempty named
  exact ⟨c, more, spelled, ne_space_of_name inside⟩

theorem Judgment.flush_text {j : Judgment} (named : ∀ name ∈ j.allNames, isBinder name = true) :
    Flush j.text := by
  obtain ⟨env, e, v⟩ := j
  rw [allNames, List.forall_mem_append, List.forall_mem_append] at named
  obtain ⟨⟨bindings, expr⟩, -⟩ := named
  rw [text]
  match env with
  | none =>
    rw [turnstileText, String.empty_append]
    exact ((Expr.flush_text expr).append _).append _
  | some .empty =>
    have turnstile : Flush "|- " := ⟨'|', _, rfl, by decide⟩
    exact ((turnstile.append _).append _).append _
  | some (.push env name value) =>
    have first : Flush (Env.push env name value).text := Env.flush_text (by simp) bindings
    rw [turnstileText]
    · exact (((first.append _).append _).append _).append _
    · simp

theorem Fact.flush_text (fact : Fact) : Flush fact.text := by
  cases fact <;> exact ((((flush_integerText _).append _).append _).append _).append _

def isRuleName (name : String) : Bool := name.toList.all fun c => !isWhiteSpace c

theorem notMem_of_isRuleName {name : String} (named : isRuleName name = true) {c : Char}
    (white : isWhiteSpace c = true) : c ∉ name.toList := by
  intro member
  have visible := List.all_eq_true.1 named c member
  rw [white] at visible
  cases visible

theorem toList_indentation (level : Nat) :
    (indentation level).toList = List.replicate (2 * level) ' ' := by
  have pushed (n : Nat) : ("".pushn ' ' n).toList = List.replicate n ' ' := by
    induction n with
    | zero => rfl
    | succ n ih =>
      rw [List.replicate_succ', ← ih, ← String.toList_push]
      rfl
  exact pushed (2 * level)

end ErrorML
