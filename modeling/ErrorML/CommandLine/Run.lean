import ErrorML.CommandLine.Help

namespace ErrorML

/-- What a run finds in the world. An operation that fails does so for a reason in words. -/
structure Surroundings where
  stdin : Except String ByteArray
  file : String → Except String ByteArray
  stdout : Except String Unit
  /-- How many characters standard output takes before it fails, where it does. -/
  stdoutRoom : Nat := 0

inductive RunError where
  | usage (error : UsageError)
  | io (context reason : String)
  | tooLarge (context : String)
  | notUtf8 (context : String)
  | check (error : CheckError)
deriving DecidableEq

def maxInputBytes : Nat := 8 * 1024 * 1024

def UsageError.message : UsageError → String
  | .missingCommand => "a command is required"
  | .unknownCommand => "unrecognized command"
  | .unknownArgument => "unexpected argument"
  | .invalidValue => "missing or invalid value"
  | .conflict => "arguments cannot be used together"
  | .surplusValue => "unexpected value"

namespace RunError

def message : RunError → String
  | .usage error => "error: " ++ error.message
  | .io context reason => "I/O error (" ++ context ++ "): " ++ reason
  | .tooLarge context =>
    "input too large (" ++ context ++ "): limit is " ++ toString maxInputBytes ++ " bytes"
  | .notUtf8 context => "input is not valid UTF-8 (" ++ context ++ ")"
  | .check error => error.text

def exitCode : RunError → UInt8
  | .usage _ => 2
  | _ => 1

end RunError

structure Report where
  written : String
  result : Outcome RunError Unit

def limited (bytes : ByteArray) : ByteArray := bytes.extract 0 (maxInputBytes + 1)

def decode (context : String) (bytes : ByteArray) : Except RunError String :=
  if maxInputBytes < bytes.size then .error (.tooLarge context)
  else
    match String.fromUTF8? bytes with
    | some text => .ok text
    | none => .error (.notUtf8 context)

def readText (world : Surroundings) (source : TextSource) : Except RunError String :=
  match source with
  | .stdin => fromBytes world.stdin
  | .file path => fromBytes (world.file path)
  | .inline text =>
    if maxInputBytes < text.utf8ByteSize then .error (.tooLarge source.name) else .ok text
where
  fromBytes (bytes : Except String ByteArray) : Except RunError String :=
    match bytes with
    | .ok bytes => decode source.name (limited bytes)
    | .error reason => .error (.io source.name reason)

def Action.respond (bound : Nat) (action : Action) (text : String) : Outcome CheckError String :=
  match action with
  | .prove => ErrorML.prove bound text
  | .eval mode => do
    let value ← ErrorML.eval bound mode text
    return value.text

def Command.respond (bound : Nat) (world : Surroundings) (command : Command) :
    Outcome RunError String := do
  let text ← .ofExcept (readText world command.source)
  (command.action.respond bound text).mapError .check

def Invocation.respond (bound : Nat) (world : Surroundings) (program : Option String) :
    Invocation → Outcome RunError String
  | .command c => c.respond bound world
  | .help topic => .ok (topic.text program)
  | .version => .ok versionText

def writeLine (world : Surroundings) (line : String) : Report :=
  match world.stdout with
  | .ok _ => ⟨line ++ "\n", .ok ()⟩
  | .error reason =>
    ⟨String.ofList ((line ++ "\n").toList.take world.stdoutRoom), .error (.io "stdout" reason)⟩

def Invocation.report (bound : Nat) (world : Surroundings) (program : Option String)
    (invocation : Invocation) : Report :=
  match invocation.respond bound world program with
  | .ok line => writeLine world line
  | .error error => ⟨"", .error error⟩
  | .exhausted => ⟨"", .exhausted⟩

/-- Runs the program with all its arguments, of which the first names the program. -/
def run (bound : Nat) (world : Surroundings) (arguments : List String) : Report :=
  match Invocation.read arguments.tail with
  | .ok invocation => invocation.report bound world (programName? arguments)
  | .error error => ⟨"", .error (.usage error)⟩

/-- The run has come as far as its line, and standard output has not taken that. -/
inductive FailsWriting (bound : Nat) (world : Surroundings) (arguments : List String) :
    RunError → Prop where
  | line {invocation : Invocation} {line reason : String}
      (read : Invocation.read arguments.tail = .ok invocation)
      (responds : invocation.respond bound world (programName? arguments) = .ok line)
      (refused : world.stdout = .error reason) :
      FailsWriting bound world arguments (.io "stdout" reason)

theorem writeLine_of_error {world : Surroundings} {line : String} {e : RunError}
    (h : (writeLine world line).result = .error e) :
    ∃ reason, world.stdout = .error reason ∧ e = .io "stdout" reason := by
  unfold writeLine at h
  split at h
  next => cases h
  next reason refused =>
    cases h
    exact ⟨reason, refused, rfl⟩

theorem run_written_of_error {bound : Nat} {world : Surroundings} {arguments : List String}
    {e : RunError} (h : (run bound world arguments).result = .error e)
    (earlier : ¬ FailsWriting bound world arguments e) :
    (run bound world arguments).written = "" := by
  unfold run at h ⊢
  split
  next invocation read =>
    rw [read] at h
    unfold Invocation.report at h ⊢
    split
    next line responds =>
      simp only [responds] at h
      obtain ⟨reason, refused, rfl⟩ := writeLine_of_error h
      exact absurd (.line read responds refused) earlier
    next => rfl
    next => rfl
  next => rfl

theorem readText_inline (world : Surroundings) (text : String) :
    readText world (.inline text) =
      if maxInputBytes < text.utf8ByteSize then .error (.tooLarge "--expr") else .ok text := rfl

end ErrorML
