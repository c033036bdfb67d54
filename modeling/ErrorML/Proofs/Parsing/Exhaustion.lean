import ErrorML.Proofs.Parsing.Inversion

namespace ErrorML

theorem byteLength_lt_of_suffix {rest text : List Char} (back : rest <:+ text)
    (shorter : rest.length < text.length) : byteLength rest < byteLength text := by
  obtain ⟨front, rfl⟩ := back
  rw [List.length_append] at shorter
  have taken := length_le_byteLength front
  rw [byteLength_append]
  omega

namespace Parser

variable {α : Type} {p : Parser α} {input rest : List Char} {values : List α}

theorem collect_stops (p : Parser α) (input : List Char) :
    p.Fails (collect p input).2 ∨ ∃ value left, p (collect p input).2 = .success value left ∧
      (collect p input).2.length ≤ left.length := by
  rw [collect_eq]
  split
  · rename_i value rest run
    split
    · exact collect_stops p rest
    · rename_i longer
      exact .inr ⟨value, rest, run, Nat.not_lt.1 longer⟩
  · rename_i error rest run
    exact .inl ⟨error, rest, run⟩
termination_by input.length

theorem Rounds.exists_texts (rounds : Rounds p input values rest) :
    ∃ texts : Nat → List Char, texts 0 = input ∧ texts values.length = rest ∧
      ∀ i (h : i < values.length), p (texts i) = .success values[i] (texts (i + 1)) ∧
        (texts (i + 1)).length < (texts i).length := by
  induction rounds with
  | done => exact ⟨fun _ => input, rfl, rfl, fun i h => absurd h (Nat.not_lt_zero i)⟩
  | @more values middle value rest _ run shorter ih =>
    obtain ⟨texts, first, last, each⟩ := ih
    -- What the last round leaves is put behind the texts so far.
    have past : ¬ values.length + 1 ≤ values.length := Nat.not_succ_le_self _
    refine ⟨fun i => if i ≤ values.length then texts i else rest, ?_, ?_, ?_⟩
    · simpa using first
    · simp only [List.length_append, List.length_singleton, past, if_false]
    · intro i h
      rw [List.length_append, List.length_singleton] at h
      obtain earlier | rfl := Nat.lt_succ_iff_lt_or_eq.1 h
      · have begun : i ≤ values.length := Nat.le_of_lt earlier
        have ended : i + 1 ≤ values.length := earlier
        simp only [begun, ended, if_true, List.getElem_append_left earlier]
        exact each i earlier
      · simp only [Nat.le_refl, past, if_true, if_false, last, List.getElem_concat_length]
        exact ⟨run, shorter⟩

theorem Rounds.length_le (ends : ∀ {input value rest}, p input = .success value rest →
    rest <:+ input) (rounds : Rounds p input values rest) :
    values.length + byteLength rest ≤ byteLength input := by
  induction rounds with
  | done => exact Nat.le_of_eq (Nat.zero_add _)
  | more _ run shorter ih =>
    have fewer := byteLength_lt_of_suffix (ends run) shorter
    rw [List.length_append, List.length_singleton]
    omega

/-- Repetition of a parser that leaves an end of its input always succeeds. The values are those of
the parser on a chain of texts, each with fewer bytes than the one before it, from the input to what
is left. There the parser fails, or takes nothing and its value is dropped. There are at most as
many values as the input has bytes. -/
theorem many_exhausts (ends : ∀ {input value rest}, p input = .success value rest → rest <:+ input)
    (input : List Char) :
    ∃ values rest, many p input = .success values rest ∧
      (∃ texts : Nat → List Char, texts 0 = input ∧ texts values.length = rest ∧
        ∀ i (h : i < values.length), p (texts i) = .success values[i] (texts (i + 1)) ∧
          byteLength (texts (i + 1)) < byteLength (texts i)) ∧
      (p.Fails rest ∨ ∃ dropped, p rest = .success dropped rest) ∧
      values.length ≤ byteLength input := by
  have rounds := Rounds.of_collect p input
  refine ⟨_, _, many_eq p input, ?_, ?_, ?_⟩
  · obtain ⟨texts, first, last, each⟩ := rounds.exists_texts
    refine ⟨texts, first, last, ?_⟩
    intro i h
    obtain ⟨run, shorter⟩ := each i h
    exact ⟨run, byteLength_lt_of_suffix (ends run) shorter⟩
  · obtain failed | ⟨dropped, left, run, longer⟩ := collect_stops p input
    · exact .inl failed
    · have same := (ends run).eq_of_length_le longer
      rw [same] at run
      exact .inr ⟨dropped, run⟩
  · have count := rounds.length_le ends
    omega

theorem many_exhausts_empty_run :
    let p := takeBetween 0 1 (· == 'é')
    (∀ {input value rest}, p input = .success value rest → rest <:+ input) ∧
      many p "éé!".toList = .success [['é'], ['é']] ['!'] ∧
      (p.Fails ['!'] ∨ ∃ dropped, p ['!'] = .success dropped ['!']) ∧
      2 ≤ byteLength "éé!".toList := by
  intro p
  have ends : ∀ {input value rest}, p input = .success value rest → rest <:+ input :=
    fun run => ((takeBetween_takes 0 1 _).success run).1
  have whole : many p "éé!".toList = .success [['é'], ['é']] ['!'] :=
    Parsed.eq_success_iff.2 (by decide +kernel)
  obtain ⟨values, rest, run, -, stops, count⟩ := many_exhausts ends "éé!".toList
  obtain ⟨rfl, rfl⟩ := Parsed.success_inj.1 (run.symm.trans whole)
  exact ⟨ends, whole, stops, count⟩

end Parser

end ErrorML
