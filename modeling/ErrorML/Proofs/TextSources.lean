import ErrorML.CommandLine.Run

/-!
# Where a text comes from

A text in the arguments is measured as it is, while a stream is cut off one byte beyond the limit
before its length and its encoding are looked at. The cut never shows: it falls only into streams
that are too long with it as well. So a text is read alike from all sources, and a run does not
depend on the source, but for the name in a complaint about the text itself.
-/

namespace ErrorML

/-! ## Bytes -/

theorem fromUTF8?_eq_some_iff {bytes : ByteArray} {text : String} :
    String.fromUTF8? bytes = some text ↔ text.toUTF8 = bytes := by
  unfold String.fromUTF8?
  constructor
  · intro read
    split at read
    · cases read
      rfl
    · cases read
  · rintro rfl
    exact dif_pos text.isValidUTF8

theorem fromUTF8?_eq_none_iff {bytes : ByteArray} :
    String.fromUTF8? bytes = none ↔ ¬ bytes.IsValidUTF8 := by
  unfold String.fromUTF8?
  split <;> simp [*]

section Decode

variable {context : String} {bytes : ByteArray}

theorem decode_of_lt (large : maxInputBytes < bytes.size) :
    decode context bytes = .error (.tooLarge context) :=
  if_pos large

theorem decode_of_le (small : bytes.size ≤ maxInputBytes) :
    decode context bytes =
      match String.fromUTF8? bytes with
      | some text => .ok text
      | none => .error (.notUtf8 context) :=
  if_neg (Nat.not_lt.2 small)

theorem decode_eq_ok_iff {text : String} :
    decode context bytes = .ok text ↔ bytes.size ≤ maxInputBytes ∧ text.toUTF8 = bytes := by
  rw [← fromUTF8?_eq_some_iff]
  rcases Nat.lt_or_ge maxInputBytes bytes.size with large | small
  · simp [decode_of_lt large, Nat.not_le.2 large]
  · rw [decode_of_le small]
    cases String.fromUTF8? bytes <;> simp [small]

theorem decode_eq_tooLarge_iff :
    decode context bytes = .error (.tooLarge context) ↔ maxInputBytes < bytes.size := by
  rcases Nat.lt_or_ge maxInputBytes bytes.size with large | small
  · simp [decode_of_lt large, large]
  · rw [decode_of_le small]
    cases String.fromUTF8? bytes <;> simp [Nat.not_lt.2 small]

theorem decode_eq_notUtf8_iff :
    decode context bytes = .error (.notUtf8 context) ↔
      bytes.size ≤ maxInputBytes ∧ ¬ bytes.IsValidUTF8 := by
  rw [← fromUTF8?_eq_none_iff]
  rcases Nat.lt_or_ge maxInputBytes bytes.size with large | small
  · simp [decode_of_lt large, Nat.not_le.2 large]
  · rw [decode_of_le small]
    cases String.fromUTF8? bytes <;> simp [small]

theorem exists_decode_iff :
    (∃ text, decode context bytes = .ok text ∧ text.toUTF8 = bytes) ↔
      bytes.size ≤ maxInputBytes ∧ bytes.IsValidUTF8 := by
  simp only [decode_eq_ok_iff]
  constructor
  · rintro ⟨text, ⟨small, rfl⟩, -⟩
    exact ⟨small, text.isValidUTF8⟩
  · rintro ⟨small, valid⟩
    exact ⟨String.fromUTF8 bytes valid, ⟨small, rfl⟩, rfl⟩

end Decode

theorem size_limited (bytes : ByteArray) :
    (limited bytes).size = min (maxInputBytes + 1) bytes.size := by
  rw [limited, ByteArray.size_extract, Nat.sub_zero]

theorem limited_of_le {bytes : ByteArray} (small : bytes.size ≤ maxInputBytes + 1) :
    limited bytes = bytes := by
  rw [limited, ← Nat.max_eq_left small]
  exact ByteArray.extract_zero_max_size

theorem decode_limited (context : String) (bytes : ByteArray) :
    decode context (limited bytes) = decode context bytes := by
  rcases Nat.lt_or_ge maxInputBytes bytes.size with large | small
  · have cut : maxInputBytes < (limited bytes).size := by
      rw [size_limited]
      omega
    rw [decode_of_lt large, decode_of_lt cut]
  · rw [limited_of_le (Nat.le_succ_of_le small)]

/-! ## Sources -/

def Surroundings.Gives (world : Surroundings) (bytes : ByteArray) : TextSource → Prop
  | .stdin => world.stdin = .ok bytes
  | .file path => world.file path = .ok bytes
  | .inline _ => False

theorem readText_of_gives {world : Surroundings} {source : TextSource} {bytes : ByteArray}
    (gives : world.Gives bytes source) : readText world source = decode source.name bytes := by
  rw [← decode_limited]
  cases source with
  | stdin =>
    have read : world.stdin = .ok bytes := gives
    simp only [readText, readText.fromBytes, read]
  | file path =>
    have read : world.file path = .ok bytes := gives
    simp only [readText, readText.fromBytes, read]
  | inline text => exact gives.elim

theorem readText_inline_eq (world : Surroundings) (text : String) :
    readText world (.inline text) = decode "--expr" text.toUTF8 := by
  have size : text.toUTF8.size = text.utf8ByteSize := rfl
  rw [readText_inline]
  split
  · rename_i large
    rw [decode_of_lt (size ▸ large)]
  · rename_i small
    rw [decode_eq_ok_iff.2 ⟨size ▸ Nat.not_lt.1 small, rfl⟩]

/-! ## Runs -/

namespace RunError

inductive Kind where
  | usage
  | io
  | tooLarge
  | notUtf8
  | check
deriving DecidableEq

def kind : RunError → Kind
  | .usage _ => .usage
  | .io _ _ => .io
  | .tooLarge _ => .tooLarge
  | .notUtf8 _ => .notUtf8
  | .check _ => .check

/-- Errors of one kind and exit code. Where their messages differ, one speaks of `name` and the
other of `name'`. -/
structure Alike (name name' : String) (e e' : RunError) : Prop where
  kind : e.kind = e'.kind
  exitCode : e.exitCode = e'.exitCode
  message : e.message = e'.message ∨
    ∃ front back, e.message = front ++ name ++ back ∧ e'.message = front ++ name' ++ back

variable (name name' : String)

theorem Alike.refl (e : RunError) : Alike name name' e e := ⟨rfl, rfl, .inl rfl⟩

theorem message_tooLarge (context : String) :
    (tooLarge context).message =
      "input too large (" ++ context ++ ("): limit is " ++ toString maxInputBytes ++ " bytes") := by
  unfold message
  -- The limit stays closed: computing its digits is no part of this.
  generalize toString maxInputBytes = limit
  simp only [String.append_assoc]

theorem alike_tooLarge : Alike name name' (.tooLarge name) (.tooLarge name') where
  kind := rfl
  exitCode := rfl
  message := .inr ⟨_, _, message_tooLarge name, message_tooLarge name'⟩

theorem alike_notUtf8 : Alike name name' (.notUtf8 name) (.notUtf8 name') where
  kind := rfl
  exitCode := rfl
  message := .inr ⟨"input is not valid UTF-8 (", ")", rfl, rfl⟩

end RunError

inductive Outcome.EndAlike {α : Type} (name name' : String) :
    Outcome RunError α → Outcome RunError α → Prop
  | ok (value : α) : EndAlike name name' (.ok value) (.ok value)
  | error {e e' : RunError} (alike : e.Alike name name' e') :
    EndAlike name name' (.error e) (.error e')
  | exhausted : EndAlike name name' .exhausted .exhausted

theorem Outcome.EndAlike.refl {α : Type} {name name' : String} (run : Outcome RunError α) :
    EndAlike name name' run run := by
  cases run with
  | ok value => exact .ok value
  | error e => exact .error (.refl name name' e)
  | exhausted => exact .exhausted

theorem decode_alike (name name' : String) (bytes : ByteArray) :
    Outcome.EndAlike name name' (.ofExcept (decode name bytes))
      (.ofExcept (decode name' bytes)) := by
  rcases Nat.lt_or_ge maxInputBytes bytes.size with large | small
  · rw [decode_of_lt large, decode_of_lt large]
    exact .error (RunError.alike_tooLarge name name')
  · rw [decode_of_le small, decode_of_le small]
    cases String.fromUTF8? bytes with
    | some text => exact .ok text
    | none => exact .error (RunError.alike_notUtf8 name name')

theorem Outcome.EndAlike.bind {α β : Type} {name name' : String} {run run' : Outcome RunError α}
    (h : EndAlike name name' run run') (next : α → Outcome RunError β) :
    EndAlike name name' (run >>= next) (run' >>= next) := by
  cases h with
  | ok value => exact .refl (next value)
  | error alike => exact .error alike
  | exhausted => exact .exhausted

theorem Command.respond_alike (bound : Nat) (world : Surroundings) (action : Action)
    (text : String) :
    Outcome.EndAlike "--expr" "stdin" (Command.respond bound world ⟨action, .inline text⟩)
      (Command.respond bound { world with stdin := .ok text.toUTF8 } ⟨action, .stdin⟩) := by
  have gives : { world with stdin := .ok text.toUTF8 }.Gives text.toUTF8 .stdin := rfl
  unfold Command.respond
  rw [readText_inline_eq, readText_of_gives gives]
  exact (decode_alike _ _ _).bind _

theorem run_of_unread {world : Surroundings} {command : Command}
    {e : RunError} (bound : Nat) (arguments : List String)
    (asked : Invocation.read arguments.tail = .ok (.command command))
    (unread : readText world command.source = .error e) :
    (run bound world arguments).result = .error e := by
  have failed : command.respond bound world = .error e := by
    rw [Command.respond, unread]
    rfl
  simp only [run, asked, Invocation.report, Invocation.respond, failed]

structure Report.Alike (name name' : String) (report report' : Report) : Prop where
  written : report.written = report'.written
  result : report.result.EndAlike name name' report'.result

theorem Command.report_alike (bound : Nat) (world : Surroundings) (program : Option String)
    (action : Action) (text : String) :
    ((Invocation.command ⟨action, .inline text⟩).report bound world program).Alike
      "--expr" "stdin"
      ((Invocation.command ⟨action, .stdin⟩).report bound
        { world with stdin := .ok text.toUTF8 } program) := by
  have alike := Command.respond_alike bound world action text
  simp only [Invocation.report, Invocation.respond]
  generalize Command.respond bound world ⟨action, .inline text⟩ = inline at alike ⊢
  generalize Command.respond bound { world with stdin := .ok text.toUTF8 } ⟨action, .stdin⟩ = piped
    at alike ⊢
  cases alike with
  | ok line => exact ⟨rfl, .refl _⟩
  | error alike => exact ⟨rfl, .error alike⟩
  | exhausted => exact ⟨rfl, .exhausted⟩

/-- A command does the same with a text in its arguments and with the text from standard input,
under every bound. A stream or file is refused for its length exactly if it has more than 8 MiB, and
for its encoding exactly if it has no more and is no UTF-8; otherwise it is read to the last byte. A
run that fails has written nothing, unless it was writing when it failed. -/
theorem sources_alike (bound : Nat) (world : Surroundings) :
    (∀ program action text,
      ((Invocation.command ⟨action, .inline text⟩).report bound world program).Alike
        "--expr" "stdin"
        ((Invocation.command ⟨action, .stdin⟩).report bound
          { world with stdin := .ok text.toUTF8 } program)) ∧
      (∀ source bytes, world.Gives bytes source →
        (readText world source = .error (.tooLarge source.name) ↔
          8 * 1024 * 1024 < bytes.size) ∧
        (readText world source = .error (.notUtf8 source.name) ↔
          bytes.size ≤ 8 * 1024 * 1024 ∧ ¬ bytes.IsValidUTF8) ∧
        ((∃ text, readText world source = .ok text ∧ text.toUTF8 = bytes) ↔
          bytes.size ≤ 8 * 1024 * 1024 ∧ bytes.IsValidUTF8)) ∧
      ∀ arguments e, (run bound world arguments).result = .error e →
        ¬ FailsWriting bound world arguments e → (run bound world arguments).written = "" := by
  refine ⟨Command.report_alike bound world, ?_, fun arguments e => run_written_of_error⟩
  intro source bytes gives
  rw [readText_of_gives gives]
  exact ⟨decode_eq_tooLarge_iff, decode_eq_notUtf8_iff, exists_decode_iff⟩

/-- Standard input with one byte more than the limit, and a file with an `é` in Latin-1. The run on
standard input fails and has written nothing. So does a run on a file named `stdout`, where files are
refused for the reason for which standard output is. -/
theorem sources_alike_refused :
    let long := ByteArray.mk (Array.replicate (8 * 1024 * 1024 + 1) 0xE9)
    let latin := ByteArray.mk #[0xE9]
    let world : Surroundings := { stdin := .ok long, file := fun _ => .ok latin, stdout := .ok () }
    let closed : Surroundings :=
      { stdin := .ok long, file := fun _ => .error "denied", stdout := .error "denied" }
    (world.Gives long .stdin ∧ readText world .stdin = .error (.tooLarge "stdin")) ∧
      (world.Gives latin (.file "latin") ∧
        readText world (.file "latin") = .error (.notUtf8 "latin")) ∧
      ((run 1 world ["evalto", "eval"]).result = .error (.tooLarge "stdin") ∧
        ¬ FailsWriting 1 world ["evalto", "eval"] (.tooLarge "stdin") ∧
        (run 1 world ["evalto", "eval"]).written = "") ∧
      ((run 1 closed ["evalto", "eval", "stdout"]).result = .error (.io "stdout" "denied") ∧
        ¬ FailsWriting 1 closed ["evalto", "eval", "stdout"] (.io "stdout" "denied") ∧
        (run 1 closed ["evalto", "eval", "stdout"]).written = "") := by
  intro long latin world closed
  obtain ⟨-, read, failed⟩ := sources_alike 1 world
  have size : long.size = 8 * 1024 * 1024 + 1 := Array.size_replicate
  have longRead := (read .stdin long rfl).1.2 (by rw [size]; exact Nat.lt_succ_self _)
  have latinRead := (read (.file "latin") latin rfl).2.1.2 (by decide +kernel)
  have early : ¬ FailsWriting 1 world ["evalto", "eval"] (.tooLarge "stdin") := by
    rintro ⟨⟩
  have asked : Invocation.read ["eval"] = .ok (.command ⟨.eval .strict, .stdin⟩) := rfl
  have stopped := run_of_unread 1 ["evalto", "eval"] asked longRead
  have asked' : Invocation.read ["eval", "stdout"] =
      .ok (.command ⟨.eval .strict, .file "stdout"⟩) := rfl
  have denied : readText closed (.file "stdout") = .error (.io "stdout" "denied") := rfl
  have stopped' := run_of_unread 1 ["evalto", "eval", "stdout"] asked' denied
  have early' : ¬ FailsWriting 1 closed ["evalto", "eval", "stdout"] (.io "stdout" "denied") := by
    rintro ⟨read, responds, -⟩
    cases asked'.symm.trans read
    cases responds
  exact ⟨⟨rfl, longRead⟩, ⟨rfl, latinRead⟩, ⟨stopped, early, failed _ _ stopped early⟩,
    stopped', early', (sources_alike 1 closed).2.2 _ _ stopped' early'⟩

end ErrorML
