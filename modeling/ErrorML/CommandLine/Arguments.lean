import ErrorML.Checking

/-!
# Arguments

The command line names one of two commands. Each reads its text from a file, from standard input, or
from the command line itself, and `eval` takes a mode. Options may be given as `--expr=TEXT`,
`--expr TEXT`, `-eTEXT`, `-e=TEXT` or `-e TEXT`; after `--` there are no options any more.

A value that is given as an argument of its own is checked only when the next argument has been
recognised, so an unknown argument is reported before a bad value to its left.
-/

namespace ErrorML

inductive TextSource where
  | stdin
  | file (path : String)
  | inline (text : String)
deriving DecidableEq

def TextSource.name : TextSource → String
  | .stdin => "stdin"
  | .file path => path
  | .inline _ => "--expr"

inductive Action where
  | prove
  | eval (mode : Mode)
deriving DecidableEq

structure Command where
  action : Action
  source : TextSource
deriving DecidableEq

inductive Topic where
  | program
  | prove
  | eval
  | help
deriving DecidableEq

inductive Invocation where
  | command (command : Command)
  | help (topic : Topic)
  | version
deriving DecidableEq

inductive UsageError where
  | missingCommand
  | unknownCommand
  | unknownArgument
  | invalidValue
  | conflict
  | surplusValue
deriving DecidableEq

/-! ## The shape of an argument -/

inductive ArgumentShape where
  | endOfOptions
  | long (name : List Char) (value : Option (List Char))
  | short (option : Char) (rest : List Char)
  | plain

def longShape (text : List Char) : ArgumentShape :=
  .long (text.takeWhile (· != '=')) <|
    match text.dropWhile (· != '=') with
    | [] => none
    | _ :: value => some value

def argumentShape (argument : String) : ArgumentShape :=
  match argument.toList with
  | ['-', '-'] => .endOfOptions
  | '-' :: '-' :: text => longShape text
  | '-' :: option :: rest => .short option rest
  | _ => .plain

def attachedValue? : List Char → Option (List Char)
  | [] => none
  | '=' :: value => some value
  | value => some value

/-! ## The arguments of a command -/

inductive Slot where
  | expr
  | mode
  | file
deriving DecidableEq

structure Arguments where
  expr : Option String
  mode : Option Mode
  file : Option String
  /-- A slot whose value has not been checked, or not even been seen. -/
  pending : Option (Slot × Option String)
  fileNamed : Bool
deriving DecidableEq

namespace Arguments

def none : Arguments := ⟨.none, .none, .none, .none, false⟩

def assign (a : Arguments) (slot : Slot) (value : String) : Except UsageError Arguments :=
  match slot with
  | .expr =>
    if a.expr.isSome then .error .conflict else .ok { a with expr := some value }
  | .mode =>
    if a.mode.isSome then .error .conflict
    else
      match Mode.ofName? value with
      | some mode => .ok { a with mode := some mode }
      | .none => .error .invalidValue
  | .file =>
    if value = "" then .error .invalidValue else .ok { a with file := some value }

def settle (a : Arguments) : Except UsageError Arguments :=
  match a.pending with
  | .none => .ok a
  | some (_, .none) => .error .invalidValue
  | some (slot, some value) => assign { a with pending := .none } slot value

def option (a : Arguments) (slot : Slot) (value : Option (List Char)) :
    Except UsageError Arguments := do
  let a ← a.settle
  match value with
  | some value => a.assign slot (String.ofList value)
  | .none => .ok { a with pending := some (slot, .none) }

def nameFile (a : Arguments) (path : String) : Except UsageError Arguments :=
  if a.fileNamed then .error .unknownArgument
  else do
    let a ← a.settle
    .ok { a with pending := some (.file, some path), fileNamed := true }

def plain (a : Arguments) (argument : String) : Except UsageError Arguments :=
  match a.pending with
  | some (slot, .none) => .ok { a with pending := some (slot, some argument) }
  | _ => a.nameFile argument

def slotOfName? (takesMode : Bool) (name : List Char) : Option Slot :=
  if name = "expr".toList then some .expr
  else if takesMode ∧ name = "mode".toList then some .mode
  else .none

def readPlain (a : Arguments) : List String → Except UsageError Arguments
  | [] => .ok a
  | argument :: rest => do
    let a ← a.nameFile argument
    readPlain a rest

/-- Reads arguments; none is the result where help is asked for. -/
def read (takesMode : Bool) (a : Arguments) : List String → Except UsageError (Option Arguments)
  | [] => .ok (some a)
  | argument :: rest =>
    match argumentShape argument with
    | .endOfOptions => do
      let a ← a.readPlain rest
      .ok (some a)
    | .long name value =>
      if name = "help".toList then
        if value.isSome then .error .surplusValue
        else do
          let _ ← a.settle
          .ok .none
      else
        match slotOfName? takesMode name with
        | .none => .error .unknownArgument
        | some slot => do
          let a ← a.option slot value
          a.read takesMode rest
    | .short 'h' _ => do
      let _ ← a.settle
      .ok .none
    | .short 'e' value => do
      let a ← a.option .expr (attachedValue? value)
      a.read takesMode rest
    | .short _ _ => .error .unknownArgument
    | .plain => do
      let a ← a.plain argument
      a.read takesMode rest

def source (a : Arguments) : Except UsageError TextSource :=
  match a.expr, a.file with
  | some _, some _ => .error .conflict
  | some text, .none => .ok (.inline text)
  | .none, some path => .ok (.file path)
  | .none, .none => .ok .stdin

theorem pending_assign {a b : Arguments} {slot : Slot} {value : String}
    (h : a.assign slot value = .ok b) : b.pending = a.pending := by
  cases slot <;> simp only [assign] at h <;> split at h <;> try cases h
  · rfl
  · split at h <;> cases h
    rfl
  · rfl

theorem settle_idem {a b : Arguments} (h : a.settle = .ok b) : b.settle = .ok b := by
  have done : b.pending = .none := by
    unfold settle at h
    split at h
    next pending => cases h; exact pending
    next => cases h
    next => exact pending_assign h
  simp [settle, done]

end Arguments

/-! ## The command line -/

def readCommand (topic : Topic) (takesMode : Bool) (action : Mode → Action)
    (arguments : List String) : Except UsageError Invocation := do
  match ← Arguments.none.read takesMode arguments with
  | none => .ok (.help topic)
  | some a =>
    let a ← a.settle
    let source ← a.source
    .ok (.command ⟨action (a.mode.getD default), source⟩)

def readTopic : List String → Except UsageError Invocation
  | [] => .ok (.help .program)
  | ["prove"] => .ok (.help .prove)
  | ["eval"] => .ok (.help .eval)
  | ["help"] => .ok (.help .help)
  | _ => .error .unknownCommand

def readAfterOptions : List String → Except UsageError Invocation
  | [] => .error .missingCommand
  | word :: _ =>
    if word = "prove" ∨ word = "eval" ∨ word = "help" then .error .unknownArgument
    else .error .unknownCommand

def Invocation.read : List String → Except UsageError Invocation
  | [] => .error .missingCommand
  | "prove" :: arguments => readCommand .prove false (fun _ => .prove) arguments
  | "eval" :: arguments => readCommand .eval true .eval arguments
  | "help" :: words => readTopic words
  | argument :: rest =>
    match argumentShape argument with
    | .endOfOptions => readAfterOptions rest
    | .long name value =>
      if name = "help".toList ∨ name = "version".toList then
        if value.isSome then .error .surplusValue
        else .ok (if name = "help".toList then .help .program else .version)
      else .error .unknownArgument
    | .short 'h' _ => .ok (.help .program)
    | .short 'V' _ => .ok .version
    | .short _ _ => .error .unknownArgument
    | .plain => .error .unknownCommand

end ErrorML
