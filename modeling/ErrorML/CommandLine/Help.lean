import ErrorML.CommandLine.Arguments
import ErrorML.Text.Terminal

namespace ErrorML

def fileName? (path : String) : Option String :=
  let components := (path.toList.splitOn '/').filter fun component =>
    component ≠ [] ∧ component ≠ ['.']
  match components.getLast? with
  | none | some ['.', '.'] => none
  | some component => some (String.ofList component)

def programName? (arguments : List String) : Option String :=
  arguments.head?.bind fileName?

def versionText : String := "evalto 0.1.0\n"

def Topic.about : Topic → String
  | .program => "Derivation prover and evaluator for ML with error values"
  | .prove => "Print the derivation of a judgment"
  | .eval => "Print the value of an expression"
  | .help => "Print this message or the help of the given subcommand(s)"

def Topic.word? : Topic → Option String
  | .program => none
  | .prove => some "prove"
  | .eval => some "eval"
  | .help => some "help"

/-- The words that call a topic: the name of the program, if it was started under one, and the word
of the topic. A call without either is one of the program, under the name that it gives itself. -/
def Topic.words (program : Option String) (topic : Topic) : String :=
  match program, topic.word? with
  | some name, some word => name ++ " " ++ word
  | some name, none => name
  | none, some word => word
  | none, none => "evalto"

def Topic.call (program : Option String) (topic : Topic) : String :=
  String.ofList (Terminal.visible (topic.words program).toList)

def Topic.operands : Topic → String
  | .program => "<COMMAND>"
  | .prove | .eval => "[OPTIONS] [FILE]"
  | .help => "[COMMAND]..."

def Topic.details : Topic → List String
  | .program =>
    ["Commands:",
      "  prove  " ++ about .prove,
      "  eval   " ++ about .eval,
      "  help   " ++ about .help,
      "",
      "Options:",
      "  -h, --help     Print help",
      "  -V, --version  Print version"]
  | .prove =>
    ["Arguments:",
      "  [FILE]  File to read, stdin when absent",
      "",
      "Options:",
      "  -e, --expr <TEXT>  Source text given inline",
      "  -h, --help         Print help"]
  | .eval =>
    ["Arguments:",
      "  [FILE]  File to read, stdin when absent",
      "",
      "Options:",
      "  -e, --expr <TEXT>  Source text given inline",
      "      --mode <MODE>  [default: strict] [possible values: strict, error-values]",
      "  -h, --help         Print help"]
  | .help =>
    ["Arguments:",
      "  [COMMAND]...  Print help for the subcommand(s)"]

def Topic.text (program : Option String) (topic : Topic) : String :=
  "\n".intercalate
    ([topic.about, "", "Usage: " ++ topic.call program ++ " " ++ topic.operands, ""]
      ++ topic.details ++ [""])

theorem Topic.call_of_visible {program : Option String} {topic : Topic}
    (h : ∀ c ∈ (topic.words program).toList, Terminal.isVisible c) :
    topic.call program = topic.words program := by
  rw [Topic.call, Terminal.visible_eq_self h, String.ofList_toList]

end ErrorML
