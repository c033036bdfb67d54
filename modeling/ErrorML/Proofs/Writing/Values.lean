import ErrorML.Proofs.Names
import ErrorML.Proofs.Reading.Judgment
import ErrorML.Proofs.Writing.Lines

/-!
# Texts that are written in one way

No two judgments have the same text, also where environments bind the dot, which no parser reads. A
text is cut into those of its parts from the left: an expression is read off its front as far as it
reaches, and a binding ends its name at the first equals sign. What a part is followed by is left
open, so that the induction can use it.
-/

namespace ErrorML

open Grammar ErrorML.Parser ErrorML.Sequence

/-! ## Cuts -/

section Cuts

variable {α : Type} {front front' back back' : List α} {a : α}

theorem cut_first (outside : a ∉ front) (outside' : a ∉ front')
    (same : front ++ a :: back = front' ++ a :: back') : front = front' ∧ back = back' := by
  rcases List.append_eq_append_iff.1 same with ⟨as, rfl, rest⟩ | ⟨as, rfl, rest⟩
  · cases as with
    | nil => simpa using rest
    | cons b as =>
      cases rest
      exact absurd (List.mem_append_right _ List.mem_cons_self) outside'
  · cases as with
    | nil => simpa using rest.symm
    | cons b as =>
      cases rest
      exact absurd (List.mem_append_right _ List.mem_cons_self) outside

theorem cut_last (outside : a ∉ back) (outside' : a ∉ back')
    (same : front ++ a :: back = front' ++ a :: back') : front = front' ∧ back = back' := by
  have backwards : back.reverse ++ a :: front.reverse = back'.reverse ++ a :: front'.reverse := by
    simpa using congrArg List.reverse same
  obtain ⟨backs, fronts⟩ := cut_first (List.mem_reverse.not.2 outside)
    (List.mem_reverse.not.2 outside') backwards
  exact ⟨List.reverse_inj.1 fronts, List.reverse_inj.1 backs⟩

end Cuts

/-! ## Names -/

theorem Expr.WellFormed.allNames {e : Expr} (h : e.WellFormed) :
    ∀ name ∈ e.allNames, isBinder name = true := by
  induction e with
  | int | bool | error | index => simp [Expr.allNames]
  | var name => simpa [Expr.allNames] using (isIdentifier_iff.1 h).1
  | binary op left right ihl ihr => exact List.forall_mem_append.2 ⟨ihl h.1, ihr h.2⟩
  | ite condition thenBranch elseBranch ihc iht ihe =>
    exact List.forall_mem_append.2 ⟨List.forall_mem_append.2 ⟨ihc h.1, iht h.2.1⟩, ihe h.2.2⟩
  | letIn name bound body ihb ihr | letRec name bound body ihb ihr =>
    exact List.forall_mem_cons.2 ⟨h.1, List.forall_mem_append.2 ⟨ihb h.2.1, ihr h.2.2⟩⟩
  | fn param body ih => exact List.forall_mem_cons.2 ⟨h.1, ih h.2⟩
  | app function argument ihf iha => exact List.forall_mem_append.2 ⟨ihf h.1, iha h.2⟩

mutual

theorem Value.WellBound.allNames : (v : Value) → v.WellBound →
    ∀ name ∈ v.allNames, isBinder name = true
  | .int _, _ | .bool _, _ | .error, _ => by simp [Value.allNames]
  | .closure env f, h => by
    rw [Value.WellBound] at h
    rw [Value.allNames]
    exact List.forall_mem_append.2 ⟨Env.WellBound.allNames env h.1, Expr.WellFormed.allNames h.2⟩
  | .recClosure env name f, h => by
    rw [Value.WellBound] at h
    rw [Value.allNames]
    exact List.forall_mem_append.2 ⟨Env.WellBound.allNames env h.1,
      List.forall_mem_cons.2 ⟨h.2.1, Expr.WellFormed.allNames h.2.2⟩⟩

theorem Env.WellBound.allNames : (env : Env) → env.WellBound →
    ∀ name ∈ env.allNames, isBinder name = true
  | .empty, _ => by simp [Env.allNames]
  | .push env name v, h => by
    rw [Env.WellBound] at h
    rw [Env.allNames]
    exact List.forall_mem_append.2 ⟨Env.WellBound.allNames env h.1,
      List.forall_mem_cons.2 ⟨h.2.1, Value.WellBound.allNames v h.2.2⟩⟩

end

/-! ## Expressions -/

variable {r r' : List Char}

theorem Expr.text_append_inj {e e' : Expr} (wellFormed : e.WellFormed)
    (wellFormed' : e'.WellFormed) (boundary : Boundary r) (boundary' : Boundary r')
    (ends : Ends 1 (skip r)) (ends' : Ends 1 (skip r'))
    (same : e.text.toList ++ r = e'.text.toList ++ r') : e = e' ∧ r = r' := by
  have read := (Expr.phrase_text wellFormed boundary).form.read ends
  have read' := (Expr.phrase_text wellFormed' boundary').form.read ends'
  rw [same, read'] at read
  obtain ⟨rfl, -⟩ := Parsed.success_inj.1 read
  exact ⟨rfl, List.append_cancel_left same⟩

theorem integerText_inj {m n : Int64} (same : integerText m = integerText n) : m = n := by
  have texts : (Expr.int m).text.toList ++ [] = (Expr.int n).text.toList ++ [] := by
    rw [List.append_nil, List.append_nil]
    exact congrArg String.toList same
  have wellFormed (n : Int64) : (Expr.int n).WellFormed := trivial
  have equal := (Expr.text_append_inj (wellFormed m) (wellFormed n) boundary_nil boundary_nil
    (ends_nil 1) (ends_nil 1) texts).1
  cases equal
  rfl

theorem Function.text_append_inj {f f' : Function} (wellFormed : f.WellFormed)
    (wellFormed' : f'.WellFormed)
    (same : f.text.toList ++ ']' :: r = f'.text.toList ++ ']' :: r') : f = f' ∧ r = r' := by
  have ends (rest : List Char) : Ends 1 (skip (']' :: rest)) := by
    rw [skip_cons (by decide)]
    exact ends_of_mark (by simp) 1 rest
  obtain ⟨functions, rest⟩ := Expr.text_append_inj wellFormed wellFormed'
    (boundary_cons (c := ']') rfl r) (boundary_cons (c := ']') rfl r') (ends r) (ends r') same
  cases f
  cases f'
  cases functions
  cases rest
  exact ⟨rfl, rfl⟩

/-! ## Literals -/

/-- Where no identifier character follows it, the text of a value is that of no other one. -/
def Value.Determined (v : Value) : Prop :=
  ∀ ⦃v' : Value⦄, v'.WellBound → ∀ ⦃r r' : List Char⦄, Boundary r → Boundary r' →
    v.text.toList ++ r = v'.text.toList ++ r' → v = v' ∧ r = r'

theorem Value.wellFormed_of_literal {v : Value} (plain : v.isClosure = false) : v.WellFormed := by
  cases v with
  | closure | recClosure => cases plain
  | _ => simp only [WellFormed]

theorem Value.exists_cons_text_of_literal {v : Value} (plain : v.isClosure = false) :
    ∃ c more, v.text.toList = c :: more ∧ c ≠ '(' := by
  cases v with
  | int n =>
    rw [text]
    exact exists_cons_of_notMem (integerText_ne_empty n) fun member =>
      absurd (mem_integerText member) (by decide)
  | bool b =>
    rw [text]
    cases b <;> exact ⟨_, _, rfl, by decide⟩
  | error =>
    rw [text]
    exact ⟨_, _, rfl, by decide⟩
  | closure | recClosure => cases plain

theorem Value.exists_cons_text_of_closure {v : Value} (closure : v.isClosure = true) :
    ∃ more, v.text.toList = '(' :: more := by
  cases v with
  | closure env f =>
    rw [text]
    exact ⟨_, by simp only [String.toList_append, List.append_assoc]; rfl⟩
  | recClosure env name f =>
    rw [text]
    exact ⟨_, by simp only [String.toList_append, List.append_assoc]; rfl⟩
  | _ => cases closure

theorem Value.literal_ne_closure {v v' : Value} (plain : v.isClosure = false)
    (closure : v'.isClosure = true) : v.text.toList ++ r ≠ v'.text.toList ++ r' := by
  obtain ⟨c, more, spelled, other⟩ := exists_cons_text_of_literal plain
  obtain ⟨more', spelled'⟩ := exists_cons_text_of_closure closure
  rw [spelled, spelled']
  intro same
  exact other (List.cons.inj same).1

theorem Value.determined_of_literal {v : Value} (plain : v.isClosure = false) : v.Determined := by
  intro v' _ r r' boundary boundary' same
  cases closure : v'.isClosure with
  | true => exact absurd same (literal_ne_closure plain closure)
  | false =>
    have read {w : Value} (plain : w.isClosure = false) {rest : List Char}
        (boundary : Boundary rest) : value (w.text.toList ++ rest) = .success w (skip rest) := by
      obtain ⟨ts, sentence, spells⟩ := w.sentence_text (wellFormed_of_literal plain) boundary
      exact (ValueSentence.read w sentence (visible_skip rest) spells).1
    have first := read plain boundary
    rw [same, read closure boundary'] at first
    obtain ⟨rfl, -⟩ := Parsed.success_inj.1 first
    exact ⟨rfl, List.append_cancel_left same⟩

/-! ## Bindings -/

def bindingText (binding : String × Value) : List Char :=
  binding.1.toList ++ '=' :: binding.2.text.toList

def bindingsText (bindings : List (String × Value)) : List Char :=
  bindings.flatMap fun binding => ',' :: bindingText binding

theorem bindingsText_cons (binding : String × Value) (bindings : List (String × Value)) :
    bindingsText (binding :: bindings) = ',' :: (bindingText binding ++ bindingsText bindings) :=
  List.flatMap_cons

theorem bindingsText_append (front back : List (String × Value)) :
    bindingsText (front ++ back) = bindingsText front ++ bindingsText back :=
  List.flatMap_append

theorem Env.bindingsText_toList {env : Env} (nonempty : env ≠ .empty) :
    bindingsText env.toList.reverse = ',' :: env.text.toList := by
  induction env with
  | empty => exact absurd rfl nonempty
  | push env name v ih =>
    rw [toList, List.reverse_cons, bindingsText_append]
    cases env with
    | empty =>
      rw [text_push_empty]
      simp [toList, bindingsText, bindingText]
    | push env second oldValue =>
      rw [ih (by simp), text_push_push]
      simp [bindingsText, bindingText]

theorem Env.toList_inj {env env' : Env} (same : env.toList = env'.toList) : env = env' := by
  induction env generalizing env' with
  | empty =>
    cases env' with
    | empty => rfl
    | push => cases same
  | push env name v ih =>
    cases env' with
    | empty => cases same
    | push env' name' v' =>
      obtain ⟨newest, older⟩ := List.cons.inj same
      cases newest
      rw [ih older]

theorem bindingText_append_inj {binding binding' : String × Value}
    (named : isBinder binding.1 = true) (named' : isBinder binding'.1 = true)
    (determined : binding.2.Determined) (wellBound : binding'.2.WellBound)
    (boundary : Boundary r) (boundary' : Boundary r')
    (same : bindingText binding ++ r = bindingText binding' ++ r') :
    binding = binding' ∧ r = r' := by
  have outside {name : String} (named : isBinder name = true) : '=' ∉ name.toList :=
    fun member => absurd (mem_of_isBinder named member) (by decide)
  simp only [bindingText, List.append_assoc, List.cons_append] at same
  obtain ⟨names, rest⟩ := cut_first (outside named) (outside named') same
  obtain ⟨values, rest⟩ := determined wellBound boundary boundary' rest
  exact ⟨Prod.ext (String.toList_inj.1 names) values, rest⟩

structure Stops (rest : List Char) : Prop where
  boundary : Boundary rest
  comma : rest.head? ≠ some ','

theorem boundary_bindingsText (bindings : List (String × Value)) (boundary : Boundary r) :
    Boundary (bindingsText bindings ++ r) := by
  cases bindings with
  | nil => exact boundary
  | cons binding bindings => exact boundary_cons (c := ',') rfl _

theorem bindingsText_append_inj {bindings bindings' : List (String × Value)}
    (determined : ∀ binding ∈ bindings, isBinder binding.1 = true ∧ binding.2.Determined)
    (wellBound : ∀ binding ∈ bindings', isBinder binding.1 = true ∧ binding.2.WellBound)
    (stops : Stops r) (stops' : Stops r')
    (same : bindingsText bindings ++ r = bindingsText bindings' ++ r') :
    bindings = bindings' ∧ r = r' := by
  induction bindings generalizing bindings' with
  | nil =>
    cases bindings' with
    | nil => exact ⟨rfl, same⟩
    | cons binding' bindings' => exact absurd (congrArg List.head? same) stops.comma
  | cons binding bindings ih =>
    cases bindings' with
    | nil => exact absurd (congrArg List.head? same.symm) stops'.comma
    | cons binding' bindings' =>
      simp only [bindingsText_cons, List.cons_append, List.append_assoc, List.cons.injEq,
        true_and] at same
      rw [List.forall_mem_cons] at determined wellBound
      obtain ⟨rfl, others⟩ := bindingText_append_inj determined.1.1 wellBound.1.1 determined.1.2
        wellBound.1.2 (boundary_bindingsText bindings stops.boundary)
        (boundary_bindingsText bindings' stops'.boundary) same
      obtain ⟨rfl, after⟩ := ih determined.2 wellBound.2 others
      exact ⟨rfl, after⟩

theorem Env.text_append_inj {env env' : Env}
    (determined : ∀ binding ∈ env.toList, binding.2.Determined) (wellBound : env.WellBound)
    (wellBound' : env'.WellBound) (nonempty : env ≠ .empty) (nonempty' : env' ≠ .empty)
    (stops : Stops r) (stops' : Stops r')
    (same : env.text.toList ++ r = env'.text.toList ++ r') : env = env' ∧ r = r' := by
  have further : bindingsText env.toList.reverse ++ r = bindingsText env'.toList.reverse ++ r' := by
    rw [bindingsText_toList nonempty, bindingsText_toList nonempty', List.cons_append, same]
    rfl
  obtain ⟨lists, after⟩ := bindingsText_append_inj
    (fun binding member =>
      have inside := List.mem_reverse.1 member
      ⟨(wellBound.bindings binding inside).1, determined binding inside⟩)
    (fun binding member => wellBound'.bindings binding (List.mem_reverse.1 member))
    stops stops' further
  exact ⟨toList_inj (List.reverse_inj.1 lists), after⟩

/-! ## Closures -/

theorem Env.text_ne_mark {env : Env} (wellBound : env.WellBound) (nonempty : env ≠ .empty)
    {c : Char} (outside : isIdentifierChar c = false) (other : c ≠ '.') :
    env.text.toList ++ r ≠ c :: r' := by
  obtain ⟨d, more, spelled, inside⟩ := exists_cons_text nonempty (WellBound.allNames env wellBound)
  rw [spelled]
  intro same
  obtain rfl := (List.cons.inj same).1
  rcases inside with inside | dot
  · rw [inside] at outside
    cases outside
  · exact other dot

theorem Env.captured_append_inj {env env' : Env}
    (determined : ∀ binding ∈ env.toList, binding.2.Determined) (wellBound : env.WellBound)
    (wellBound' : env'.WellBound)
    (same : env.text.toList ++ ')' :: r = env'.text.toList ++ ')' :: r') : env = env' ∧ r = r' := by
  have stops (rest : List Char) : Stops (')' :: rest) := ⟨boundary_cons rfl rest, by simp⟩
  by_cases empty : env = .empty
  · by_cases empty' : env' = .empty
    · subst empty empty'
      exact ⟨rfl, (List.cons.inj same).2⟩
    · subst empty
      exact absurd same.symm (Env.text_ne_mark wellBound' empty' rfl (by decide))
  · by_cases empty' : env' = .empty
    · subst empty'
      exact absurd same (Env.text_ne_mark wellBound empty rfl (by decide))
    · obtain ⟨rfl, after⟩ :=
        text_append_inj determined wellBound wellBound' empty empty' (stops r) (stops r') same
      exact ⟨rfl, (List.cons.inj after).2⟩

theorem Value.text_closure_append (env : Env) (f : Function) (rest : List Char) :
    (closure env f).text.toList ++ rest =
      '(' :: (env.text.toList ++ ')' :: ('[' :: (f.text.toList ++ ']' :: rest))) := by
  rw [text]
  simp

theorem Value.text_recClosure_append (env : Env) (name : String) (f : Function) (rest : List Char) :
    (recClosure env name f).text.toList ++ rest =
      '(' :: (env.text.toList ++ ')' :: ('[' :: ("rec ".toList ++ (name.toList ++ ' ' ::
        ("= ".toList ++ (f.text.toList ++ ']' :: rest)))))) := by
  rw [text]
  simp

theorem Function.text_ne_rec (f : Function) : f.text.toList ++ r ≠ "rec ".toList ++ r' := by
  rw [Function.text, Function.expr, Expr.text_fn]
  simp

mutual

theorem Value.determined : (v : Value) → v.WellBound → v.Determined
  | .int n, _ => Value.determined_of_literal rfl
  | .bool b, _ => Value.determined_of_literal rfl
  | .error, _ => Value.determined_of_literal rfl
  | .closure env f, wellBound => by
    intro v' wellBound' r r' _ _ same
    rw [Value.WellBound] at wellBound
    have bindings := Env.determined env wellBound.1
    cases v' with
    | closure env' f' =>
      rw [Value.WellBound] at wellBound'
      rw [Value.text_closure_append, Value.text_closure_append] at same
      obtain ⟨rfl, inside⟩ := Env.captured_append_inj bindings wellBound.1 wellBound'.1
        (List.cons.inj same).2
      obtain ⟨rfl, after⟩ := Function.text_append_inj wellBound.2 wellBound'.2
        (List.cons.inj inside).2
      exact ⟨rfl, after⟩
    | recClosure env' name' f' =>
      rw [Value.WellBound] at wellBound'
      rw [Value.text_closure_append, Value.text_recClosure_append] at same
      obtain ⟨rfl, inside⟩ := Env.captured_append_inj bindings wellBound.1 wellBound'.1
        (List.cons.inj same).2
      exact absurd (List.cons.inj inside).2 f.text_ne_rec
    | _ => exact absurd same.symm (Value.literal_ne_closure rfl rfl)
  | .recClosure env name f, wellBound => by
    intro v' wellBound' r r' _ _ same
    rw [Value.WellBound] at wellBound
    have bindings := Env.determined env wellBound.1
    cases v' with
    | closure env' f' =>
      rw [Value.WellBound] at wellBound'
      rw [Value.text_recClosure_append, Value.text_closure_append] at same
      obtain ⟨rfl, inside⟩ := Env.captured_append_inj bindings wellBound.1 wellBound'.1
        (List.cons.inj same).2
      exact absurd (List.cons.inj inside).2.symm f'.text_ne_rec
    | recClosure env' name' f' =>
      rw [Value.WellBound] at wellBound'
      rw [Value.text_recClosure_append, Value.text_recClosure_append] at same
      obtain ⟨rfl, inside⟩ := Env.captured_append_inj bindings wellBound.1 wellBound'.1
        (List.cons.inj same).2
      have space {name : String} (named : isBinder name = true) : ' ' ∉ name.toList :=
        fun member => absurd (mem_of_isBinder named member) (by decide)
      obtain ⟨names, literal⟩ := cut_first (space wellBound.2.1) (space wellBound'.2.1)
        (List.append_cancel_left (List.cons.inj inside).2)
      obtain ⟨rfl, after⟩ := Function.text_append_inj wellBound.2.2 wellBound'.2.2
        (List.append_cancel_left literal)
      exact ⟨by rw [String.toList_inj.1 names], after⟩
    | _ => exact absurd same.symm (Value.literal_ne_closure rfl rfl)

theorem Env.determined : (env : Env) → env.WellBound →
    ∀ binding ∈ env.toList, binding.2.Determined
  | .empty, _ => by
    rintro binding ⟨⟩
  | .push env name v, wellBound => by
    rw [Env.WellBound] at wellBound
    rw [Env.toList, List.forall_mem_cons]
    exact ⟨Value.determined v wellBound.2.2, Env.determined env wellBound.1⟩

end

/-! ## Judgments -/

structure Judgment.WellBound (j : Judgment) : Prop where
  env : ∀ env ∈ j.env, env.WellBound
  expr : j.expr.WellFormed
  value : j.value.WellBound

mutual

instance Value.decidableWellBound : (v : Value) → Decidable v.WellBound
  | .int _ | .bool _ | .error => isTrue (by simp only [Value.WellBound])
  | .closure env function =>
    have := Env.decidableWellBound env
    decidable_of_iff (env.WellBound ∧ function.WellFormed) (by rw [Value.WellBound])
  | .recClosure env name function =>
    have := Env.decidableWellBound env
    decidable_of_iff (env.WellBound ∧ isBinder name = true ∧ function.WellFormed)
      (by rw [Value.WellBound])

instance Env.decidableWellBound : (env : Env) → Decidable env.WellBound
  | .empty => isTrue (by simp only [Env.WellBound])
  | .push env name value =>
    have := Env.decidableWellBound env
    have := Value.decidableWellBound value
    decidable_of_iff (env.WellBound ∧ isBinder name = true ∧ value.WellBound)
      (by rw [Env.WellBound])

end

instance (j : Judgment) : Decidable j.WellBound :=
  decidable_of_iff ((∀ env ∈ j.env, env.WellBound) ∧ j.expr.WellFormed ∧ j.value.WellBound)
    ⟨fun ⟨env, expr, value⟩ => ⟨env, expr, value⟩, fun ⟨env, expr, value⟩ => ⟨env, expr, value⟩⟩

theorem Judgment.WellBound.allNames {j : Judgment} (h : j.WellBound) :
    ∀ name ∈ j.allNames, isBinder name = true := by
  obtain ⟨env, e, v⟩ := j
  refine List.forall_mem_append.2 ⟨List.forall_mem_append.2 ⟨?_, h.expr.allNames⟩,
    Value.WellBound.allNames v h.value⟩
  cases env with
  | none => simp
  | some env => exact Env.WellBound.allNames env (h.env env rfl)

theorem evalto_closes (text : List Char) :
    Boundary (" evalto ".toList ++ text) ∧ Ends 1 (skip (" evalto ".toList ++ text)) ∧
      (symbol "=").Fails (skip (" evalto ".toList ++ text)) := by
  have word := Word.append "evalto" rfl (boundary_cons (c := ' ') rfl text)
  obtain ⟨shown, ends, unequal⟩ := word.closes
  have start : skip (" evalto ".toList ++ text) = "evalto".toList ++ ' ' :: text := shown
  rw [start]
  exact ⟨boundary_cons (c := ' ') rfl _, ends, unequal⟩

theorem evalto_append_inj {e e' : Expr} {v v' : Value} (expr : e.WellFormed)
    (expr' : e'.WellFormed) (value : v.WellBound) (value' : v'.WellBound)
    (same : e.text.toList ++ (" evalto ".toList ++ v.text.toList) =
      e'.text.toList ++ (" evalto ".toList ++ v'.text.toList)) : e = e' ∧ v = v' := by
  obtain ⟨boundary, ends, -⟩ := evalto_closes v.text.toList
  obtain ⟨boundary', ends', -⟩ := evalto_closes v'.text.toList
  obtain ⟨rfl, rest⟩ := Expr.text_append_inj expr expr' boundary boundary' ends ends' same
  have values := List.append_cancel_left rest
  rw [← List.append_nil v.text.toList, ← List.append_nil v'.text.toList] at values
  exact ⟨rfl, (Value.determined v value value' boundary_nil boundary_nil values).1⟩

theorem Grammar.Phrase.ne_binding {k : Nat} {input rest : List Char} {e : Expr}
    (h : Phrase k input e rest) (unequal : (symbol "=").Fails rest) {name : String}
    (named : isBinder name = true) (more : List Char) : input ≠ name.toList ++ '=' :: more := by
  rintro rfl
  rw [isBinder, Bool.or_eq_true, beq_iff_eq] at named
  rcases named with identifier | rfl
  · -- A parser that takes anything for a value would read the binding.
    let anything : Parser Value := fun input => .success .error input
    have word := Word.append name (inside_of_isIdentifier identifier)
      (boundary_cons (c := '=') rfl more)
    have equals := Symbol.append "=" more
    have bound : anything (skip more) = .success .error (skip more) := rfl
    have read := ((Runs.of (fun name _ value => (name, value)) _).next
      (identifier_reads identifier word) |>.next (symbol_reads equals) |>.next bound).parser
    obtain ⟨error, left, failed⟩ := h.binding_fails anything unequal
    cases failed.symm.trans read
  · exact h.starts (c := '.') rfl (by decide) rfl

theorem Env.exists_binding_text {env : Env} (nonempty : env ≠ .empty) (wellBound : env.WellBound) :
    ∃ name more, isBinder name = true ∧ env.text.toList = name.toList ++ '=' :: more := by
  have listed := bindingsText_toList nonempty
  cases bindings : env.toList.reverse with
  | nil =>
    rw [bindings] at listed
    cases listed
  | cons binding bindings' =>
    have member : binding ∈ env.toList := by
      rw [← List.mem_reverse, bindings]
      exact List.mem_cons_self
    rw [bindings, bindingsText_cons] at listed
    refine ⟨binding.1, binding.2.text.toList ++ bindingsText bindings',
      (wellBound.bindings binding member).1, ?_⟩
    rw [← (List.cons.inj listed).2, bindingText, List.append_assoc]
    rfl

theorem Judgment.toList_text (env : Option Env) (e : Expr) (v : Value) :
    (Judgment.mk env e v).text.toList =
      (turnstileText env).toList ++ (e.text.toList ++ (" evalto ".toList ++ v.text.toList)) := by
  simp [text]

theorem turnstileText_push (env : Env) (name : String) (v : Value) :
    turnstileText (some (env.push name v)) = (env.push name v).text ++ " |- " := by
  rw [turnstileText]
  simp

theorem Judgment.bare_ne_turnstile {e : Expr} (expr : e.WellFormed) {env : Env}
    (bindings : env.WellBound) (text more : List Char) :
    e.text.toList ++ (" evalto ".toList ++ text) ≠ (turnstileText (some env)).toList ++ more := by
  obtain ⟨boundary, -, unequal⟩ := evalto_closes text
  have phrase := Expr.phrase_text expr boundary
  cases env with
  | empty =>
    intro same
    exact phrase.starts (c := '|') rfl (by decide) (by rw [same]; rfl)
  | push env name v =>
    have nonempty : env.push name v ≠ .empty := by simp
    obtain ⟨name', more', named, spelled⟩ := Env.exists_binding_text nonempty bindings
    rw [turnstileText_push, String.toList_append, spelled]
    simp only [List.append_assoc, List.cons_append]
    exact phrase.ne_binding unequal named _

theorem turnstileText_append_inj {env env' : Env} (bindings : env.WellBound)
    (bindings' : env'.WellBound)
    (same : (turnstileText (some env)).toList ++ r = (turnstileText (some env')).toList ++ r') :
    env = env' ∧ r = r' := by
  have stops (rest : List Char) : Stops (" |- ".toList ++ rest) :=
    ⟨boundary_cons (c := ' ') rfl _, by simp⟩
  cases env with
  | empty =>
    cases env' with
    | empty => exact ⟨rfl, List.append_cancel_left same⟩
    | push env' name' v' =>
      rw [turnstileText_push, String.toList_append, List.append_assoc] at same
      exact absurd same.symm (Env.text_ne_mark bindings' (by simp) rfl (by decide))
  | push env name v =>
    rw [turnstileText_push, String.toList_append, List.append_assoc] at same
    cases env' with
    | empty => exact absurd same (Env.text_ne_mark bindings (by simp) rfl (by decide))
    | push env' name' v' =>
      rw [turnstileText_push, String.toList_append, List.append_assoc] at same
      obtain ⟨environments, rest⟩ := Env.text_append_inj (Env.determined _ bindings) bindings
        bindings' (by simp) (by simp) (stops r) (stops r') same
      exact ⟨environments, List.append_cancel_left rest⟩

theorem Judgment.text_inj {j j' : Judgment} (wellBound : j.WellBound) (wellBound' : j'.WellBound)
    (same : j.text = j'.text) : j = j' := by
  obtain ⟨env, e, v⟩ := j
  obtain ⟨env', e', v'⟩ := j'
  obtain ⟨bindings, expr, value⟩ := wellBound
  obtain ⟨bindings', expr', value'⟩ := wellBound'
  rw [← String.toList_inj, toList_text, toList_text] at same
  cases env with
  | none =>
    cases env' with
    | none =>
      obtain ⟨rfl, rfl⟩ := evalto_append_inj expr expr' value value' same
      rfl
    | some env' => exact absurd same (bare_ne_turnstile expr (bindings' env' rfl) _ _)
  | some env =>
    cases env' with
    | none => exact absurd same.symm (bare_ne_turnstile expr' (bindings env rfl) _ _)
    | some env' =>
      obtain ⟨rfl, rest⟩ := turnstileText_append_inj (bindings env rfl) (bindings' env' rfl) same
      obtain ⟨rfl, rfl⟩ := evalto_append_inj expr expr' value value' rest
      rfl

end ErrorML
