import Mathlib.Data.List.TakeWhile
import ErrorML.Checking
import ErrorML.Proofs.Parsing.Wording
import ErrorML.Proofs.Positions
import ErrorML.Proofs.Reading.Judgment

namespace ErrorML

open Grammar ErrorML.Parser ErrorML.Sequence

variable {α : Type}

namespace Grammar

theorem TokenError.message_ne_empty (error : TokenError) : error.message ≠ "" := by
  cases error with
  | noIdentifier | indexZero => decide
  | _ => exact append_ne_empty (append_ne_empty (by decide) _) _

theorem readToken_reports {β : Type} (read : α → Except TokenError β) {p : Parser α}
    (h : p.Reports) : (readToken read p).Reports := by
  apply h.mapOrRefuse
  intro value reason refused
  cases found : read value with
  | ok result =>
    rw [found] at refused
    cases refused
  | error error =>
    rw [found] at refused
    cases refused
    exact error.message_ne_empty

theorem lexeme_reports {p : Parser α} (h : p.Reports) : (lexeme p).Reports :=
  h.thenSkip (takeWhile_reports _)

theorem symbol_reports (text : String) : (symbol text).Reports :=
  lexeme_reports (literal_reports text)

theorem keyword_reports (word : String) : (keyword word).Reports := by
  apply lexeme_reports
  apply (takeWhile_reports _).mapOrRefuse
  intro found reason refused
  split at refused
  · cases refused
  · cases refused
    exact (TokenError.notWord word).message_ne_empty

theorem identifier_reports : identifier.Reports :=
  lexeme_reports (readToken_reports _ (takeWhile_reports _))

theorem binder_reports : binder.Reports :=
  firstOf_reports (by simp) (by
    simpa using ⟨identifier_reports, (symbol_reports _).map _⟩)

theorem boolean_reports : boolean.Reports :=
  firstOf_reports (by simp) (by
    simpa using ⟨(keyword_reports _).map _, (keyword_reports _).map _⟩)

theorem integer_reports (signed : Bool) : (integer signed).Reports :=
  readToken_reports _ (lexeme_reports ((of_reports _).next (takeBetween_reports _ _ _)
    |>.next (takeBetween_reports _ _ _) |>.next (takeWhile_reports _)).parser)

theorem index_reports : index.Reports :=
  readToken_reports _ (lexeme_reports ((of_reports _).next (literal_reports _)
    |>.next (takeBetween_reports _ _ _) |>.next (takeWhile_reports _)).parser)

theorem Terminal.reports {α : Type} (t : Terminal α) : t.parser.Reports := by
  cases t with
  | symbol text => exact symbol_reports text
  | keyword word => exact keyword_reports word
  | identifier => exact identifier_reports
  | binder => exact binder_reports
  | boolean => exact boolean_reports
  | integer signed => exact integer_reports signed
  | index => exact index_reports

theorem reports_compositional :
    Compositional (fun _ => Parser.Reports) fun _ => Sequence.Reports where
  terminal := Terminal.reports
  map f h := h.map f
  optional h := h.optional
  many h := h.many
  firstOf := firstOf_reports
  of := of_reports
  next first second := first.next second
  parser h := h.parser

theorem Nonterminal.failures (n : Nonterminal) (input : List Char) : ∀ error rest,
    n.parser input = .failure error rest → error.PointsInto input ∧ error.Worded := by
  apply Nonterminal.induction fun _ input result => ∀ error rest,
    result = .failure error rest → error.PointsInto input ∧ error.Worded
  · intro n input error rest run
    cases run
    exact ⟨ParseError.pointsInto_leaf _ _, ParseError.worded_leaf (by decide) _⟩
  · intro calls take h n input error rest run
    have called (m : Nonterminal) : (calls m).Reports :=
      ⟨⟨(take m).weaken (Nat.zero_le _), fun run => (h m _ _ _ run).1⟩,
        fun run => (h m _ _ _ run).2⟩
    have reports := n.production.holds reports_compositional called
    exact ⟨reports.rewinds.points run, reports.worded run⟩

theorem Nonterminal.reports (n : Nonterminal) : n.parser.Reports where
  rewinds := ⟨(Nonterminal.takes n).weaken (Nat.zero_le _), fun run => (n.failures _ _ _ run).1⟩
  worded run := (n.failures _ _ _ run).2

theorem expression_reports : expression.Reports := Nonterminal.reports .expression

theorem value_reports : value.Reports := Nonterminal.reports .value

theorem environment_reports : environment.Reports := Nonterminal.reports .environment

theorem request_reports : request.Reports :=
  Production.request.holds reports_compositional Nonterminal.reports

theorem judgment_reports : judgment.Reports :=
  Production.judgment.holds reports_compositional Nonterminal.reports

end Grammar

theorem intercalate_ne_empty (separator : String) {words : List String} (nonempty : words ≠ [])
    (each : ∀ word ∈ words, word ≠ "") : separator.intercalate words ≠ "" := by
  cases words with
  | nil => exact absurd rfl nonempty
  | cons word words =>
    intro empty
    have first : word.toList ≠ [] := by
      simpa using each word List.mem_cons_self
    have none : (separator.intercalate (word :: words)).toList = [] := by rw [empty]; rfl
    rw [String.toList_intercalate] at none
    cases words <;> simp_all

/-- The number of bytes left where a run of `p` came to: behind what it read, or where the attempts
that got furthest failed. -/
def Parser.bytesLeft (p : Parser α) (input : List Char) : Nat :=
  match p input with
  | ⟨.ok _, rest⟩ => byteLength rest
  | ⟨.error error, _⟩ => error.remainingBytes

theorem Parser.Reports.exists_left {p : Parser α} (h : p.Reports) (input : List Char) :
    ∃ left, left <:+ input ∧ p.bytesLeft input = byteLength left := by
  unfold Parser.bytesLeft
  split
  · rename_i value rest run
    exact ⟨rest, (h.rewinds.takes.success run).1, rfl⟩
  · rename_i error rest run
    exact (h.rewinds.points run).exists_left

/-- The offset `k` is where `p` came to in `source`, which it reads from the first character that is
no blank. -/
structure Pinpoints (p : Parser α) (source : List Char) (k : Nat) : Prop where
  exact : k + p.bytesLeft (source.dropWhile isBlank) = byteLength source
  started : byteLength (source.takeWhile isBlank) ≤ k
  within : k ≤ byteLength source
  boundary : IsBoundary source k

theorem Parser.Reports.pinpoints {p : Parser α} (h : p.Reports) (source : List Char) :
    Pinpoints p source (byteLength source - p.bytesLeft (source.dropWhile isBlank)) := by
  obtain ⟨left, ⟨read, split⟩, count⟩ := h.exists_left (source.dropWhile isBlank)
  have whole : source = source.takeWhile isBlank ++ read ++ left := by
    rw [List.append_assoc, split, List.takeWhile_append_dropWhile]
  have lengths : byteLength source =
      byteLength (source.takeWhile isBlank) + byteLength read + byteLength left := by
    rw [← byteLength_append, ← byteLength_append, ← whole]
  rw [count]
  exact {
    exact := by rw [count]; omega
    started := by omega
    within := by omega
    boundary := ⟨source.takeWhile isBlank ++ read, left, whole, by rw [byteLength_append]; omega⟩ }

/-- `error` is what can be said of a `source` that `p` does not read: what is wrong and, unless the
source is blank, where. -/
structure CheckError.Diagnoses (error : CheckError) (p : Parser α) (source : String) : Prop where
  kind : error.kind = .parse
  wording : error.message ≠ ""
  place : ((∀ c ∈ source.toList, isBlank c) ∧ error.position? = none) ∨
    ((∃ c ∈ source.toList, isBlank c = false) ∧ ∃ k, Pinpoints p source.toList k ∧
      error.position? = some (Position.locate source.toList k))

theorem readAll_diagnosed {p : Parser α} (h : p.Reports) {source : String} {error : SourceError}
    (unread : readAll p source = .error error) :
    (CheckError.malformed error).Diagnoses p source := by
  have pinned := h.pinpoints source.toList
  unfold readAll at unread
  dsimp only at unread
  split at unread
  · rename_i blank
    cases unread
    exact ⟨rfl, by decide, .inl ⟨by simpa using blank, rfl⟩⟩
  · rename_i c start visible
    have visibleChar : ∃ c ∈ source.toList, isBlank c = false := by
      have nonempty : source.toList.dropWhile isBlank ≠ [] := by simp [visible]
      simpa using nonempty
    rw [Parser.bytesLeft, visible] at pinned
    split at unread
    · cases unread
    · rename_i value rest leftover run
      cases unread
      rw [run] at pinned
      refine ⟨rfl, ?_, .inr ⟨visibleChar, _, pinned, rfl⟩⟩
      exact append_ne_empty (append_ne_empty (by decide) _) _
    · rename_i failure rest run
      cases unread
      rw [run] at pinned
      refine ⟨rfl, ?_, .inr ⟨visibleChar, _, pinned, rfl⟩⟩
      exact intercalate_ne_empty _
        (ParseError.expectations_ne_nil (h.rewinds.points run).nonempty)
        (h.worded run).expectations

/-- Texts of all kinds that are not read. What is said of one is a parse error, and says something.
It has no place if the text is blank, and otherwise the place at which its parser stopped: an exact
offset in bytes, no earlier than the first character that is no blank, between two characters. -/
theorem parse_error_diagnosed (source : String) (error : SourceError) :
    (Expr.parse source = .error error →
      (CheckError.malformed error).Diagnoses expression source) ∧
    (Value.parse source = .error error →
      (CheckError.malformed error).Diagnoses value source) ∧
    (Env.parse source = .error error →
      (CheckError.malformed error).Diagnoses environment source) ∧
    (Judgment.parse source = .error error →
      (CheckError.malformed error).Diagnoses judgment source) ∧
    (Request.parse source = .error error →
      (CheckError.malformed error).Diagnoses request source) := by
  refine ⟨readAll_diagnosed expression_reports, readAll_diagnosed value_reports, ?_,
    readAll_diagnosed judgment_reports, readAll_diagnosed request_reports⟩
  intro unread
  unfold Env.parse at unread
  split at unread
  · cases unread
  · exact readAll_diagnosed environment_reports unread

/-- A text of each kind, and a blank one. The environment goes on with an `é`, of two bytes, and is
read up to the comma before it. -/
theorem parse_error_diagnosed_within_text :
    let expr := SourceError.unmet ["expected ')'"] ⟨1, 6⟩
    let value := SourceError.unmet ["expected identifier", "expected '.'"] ⟨2, 10⟩
    let env := SourceError.leftover ",é" ⟨1, 4⟩
    let judgment := SourceError.unmet ["expected 'evalto'"] ⟨1, 5⟩
    let request := SourceError.leftover "=" ⟨1, 3⟩
    (Expr.parse " (1 é" = .error expr ∧
      (CheckError.malformed expr).Diagnoses expression " (1 é") ∧
    (Value.parse "\n(x=1)[fun" = .error value ∧
      (CheckError.malformed value).Diagnoses Grammar.value "\n(x=1)[fun") ∧
    (Env.parse "x=1,é" = .error env ∧
      (CheckError.malformed env).Diagnoses environment "x=1,é") ∧
    (Judgment.parse "|- é" = .error judgment ∧
      (CheckError.malformed judgment).Diagnoses Grammar.judgment "|- é") ∧
    (Request.parse "x = 1 |-" = .error request ∧
      (CheckError.malformed request).Diagnoses Grammar.request "x = 1 |-") ∧
    (Expr.parse "\r\n" = .error .empty ∧
      (CheckError.malformed .empty).Diagnoses expression "\r\n") := by
  intro expr value env judgment request
  have exprUnread : Expr.parse " (1 é" = .error expr := by decide +kernel
  have valueUnread : Value.parse "\n(x=1)[fun" = .error value := by decide +kernel
  have envUnread : Env.parse "x=1,é" = .error env := by decide +kernel
  have judgmentUnread : Judgment.parse "|- é" = .error judgment := by decide +kernel
  have requestUnread : Request.parse "x = 1 |-" = .error request := by decide +kernel
  have blankUnread : Expr.parse "\r\n" = .error .empty := by decide +kernel
  exact ⟨⟨exprUnread, (parse_error_diagnosed _ _).1 exprUnread⟩,
    ⟨valueUnread, (parse_error_diagnosed _ _).2.1 valueUnread⟩,
    ⟨envUnread, (parse_error_diagnosed _ _).2.2.1 envUnread⟩,
    ⟨judgmentUnread, (parse_error_diagnosed _ _).2.2.2.1 judgmentUnread⟩,
    ⟨requestUnread, (parse_error_diagnosed _ _).2.2.2.2 requestUnread⟩,
    ⟨blankUnread, (parse_error_diagnosed _ _).1 blankUnread⟩⟩

end ErrorML
