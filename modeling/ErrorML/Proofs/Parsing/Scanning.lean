import ErrorML.Proofs.Parsing.Progress

namespace ErrorML

/-- The first `m` characters are of a class, and no longer front of the text is. -/
structure LongestRun (pred : Char → Bool) (text : List Char) (m : Nat) : Prop where
  within : m ≤ text.length
  inside : ∀ c ∈ text.take m, pred c
  longest : ∀ n ≤ text.length, (∀ c ∈ text.take n, pred c) → n ≤ m

theorem LongestRun.unique {pred : Char → Bool} {text : List Char} {m n : Nat}
    (h : LongestRun pred text m) (h' : LongestRun pred text n) : m = n :=
  Nat.le_antisymm (h'.longest m h.within h.inside) (h.longest n h'.within h'.inside)

theorem take_takeWhile (pred : Char → Bool) (text : List Char) :
    text.take (text.takeWhile pred).length = text.takeWhile pred :=
  (List.prefix_iff_eq_take.1 (List.takeWhile_prefix pred)).symm

theorem longestRun_takeWhile (pred : Char → Bool) (text : List Char) :
    LongestRun pred text (text.takeWhile pred).length where
  within := (List.takeWhile_prefix pred).length_le
  inside := by
    rw [take_takeWhile]
    exact List.all_eq_true.1 List.all_takeWhile
  longest := by
    intro n fits inside
    have run : (text.take n ++ text.drop n).takeWhile pred =
        text.take n ++ (text.drop n).takeWhile pred := List.takeWhile_append_of_pos inside
    rw [List.take_append_drop] at run
    rw [run, List.length_append, List.length_take_of_le fits]
    exact Nat.le_add_right _ _

namespace Parser

theorem takeWhile_eq (pred : Char → Bool) (input : List Char) :
    takeWhile pred input =
      .success (input.take (input.takeWhile pred).length)
        (input.drop (input.takeWhile pred).length) := by
  have whole := List.takeWhile_append_dropWhile (p := pred) (l := input)
  have parts := List.take_append_drop (input.takeWhile pred).length input
  rw [take_takeWhile] at parts
  rw [take_takeWhile, List.append_cancel_left (parts.trans whole.symm), takeWhile]

/-- Let `m` be the length of the longest run. The counting scan fails and gives the whole input back
if fewer than `least` characters are among the first `min m most`, and tells how many there were;
otherwise it takes just these. With bounds that no text reaches, it does what the scan for the end
of the run does. -/
theorem takeBetween_longestRun (pred : Char → Bool) {input : List Char}
    (short : byteLength input < maxWord) :
    ∃ m, LongestRun pred input m ∧
      (∀ least most : Nat,
        ((takeBetween least most pred).Fails input ↔ min m most < least) ∧
        (min m most < least → takeBetween least most pred input =
          .failure (.leaf (.atLeast least (min m most)) (byteLength input)) input) ∧
        (most < least → (takeBetween least most pred).Fails input) ∧
        (least ≤ min m most → takeBetween least most pred input =
          .success (input.take (min m most)) (input.drop (min m most)))) ∧
      takeWhile pred input = takeBetween 0 maxWord pred input := by
  have run := longestRun_takeWhile pred input
  have searched := takeWhile_eq pred input
  have counted := fun least most => takeBetween_eq least most pred input
  generalize (input.takeWhile pred).length = m at run searched counted
  refine ⟨m, run, ?_, ?_⟩
  · intro least most
    have fails (few : min m most < least) : takeBetween least most pred input =
        .failure (.leaf (.atLeast least (min m most)) (byteLength input)) input := by
      rw [counted, if_pos few]
    have succeeds (enough : least ≤ min m most) : takeBetween least most pred input =
        .success (input.take (min m most)) (input.drop (min m most)) := by
      rw [counted, if_neg (Nat.not_lt.2 enough)]
    refine ⟨⟨?_, fun few => ⟨_, _, fails few⟩⟩, fails, ?_, succeeds⟩
    · rintro ⟨error, rest, failed⟩
      refine Nat.lt_of_not_le fun enough => ?_
      rw [succeeds enough] at failed
      cases failed
    · intro inverted
      exact ⟨_, _, fails (Nat.lt_of_le_of_lt (Nat.min_le_right m most) inverted)⟩
  · have within := run.within
    have bytes := length_le_byteLength input
    have all : Nat.min m maxWord = m := Nat.min_eq_left (by omega)
    rw [searched, counted, if_neg (Nat.not_lt_zero _), all]

theorem takeBetween_longestRun_two_bytes :
    let pred := fun c => c == 'é'
    let input := "ééa".toList
    byteLength input < maxWord ∧ LongestRun pred input 2 ∧
      takeBetween 3 9 pred input = .failure (.leaf (.atLeast 3 2) 5) input ∧
      (takeBetween 2 1 pred).Fails input ∧
      takeBetween 1 1 pred input = .success ['é'] ['é', 'a'] ∧
      takeWhile pred input = takeBetween 0 maxWord pred input := by
  intro pred input
  have short : byteLength input < maxWord := by decide
  have two : LongestRun pred input 2 := longestRun_takeWhile pred input
  obtain ⟨m, run, counted, agree⟩ := takeBetween_longestRun pred short
  obtain rfl := run.unique two
  obtain ⟨-, fails, -, -⟩ := counted 3 9
  obtain ⟨-, -, inverted, -⟩ := counted 2 1
  obtain ⟨-, -, -, succeeds⟩ := counted 1 1
  exact ⟨short, run, fails (by decide), inverted (by decide), succeeds (by decide), agree⟩

end Parser

end ErrorML
