import ErrorML.Grammar.Judgment

namespace ErrorML

inductive SourceError where
  | empty
  | leftover (found : String) (position : Position)
  | unmet (expectations : List String) (position : Position)
deriving DecidableEq

namespace SourceError

def message : SourceError → String
  | .empty => "input is empty"
  | .leftover found _ => "expected end of input, found '" ++ found ++ "'"
  | .unmet expectations _ => " or ".intercalate expectations

def position? : SourceError → Option Position
  | .empty => none
  | .leftover _ position | .unmet _ position => some position

end SourceError

def firstWord (text : List Char) : String :=
  String.ofList (text.takeWhile fun c => !isWhiteSpace c)

def positionBefore (source : List Char) (remaining : Nat) : Position :=
  Position.locate source (byteLength source - remaining)

def readAll {α : Type} (parser : Parser α) (source : String) : Except SourceError α :=
  let text := source.toList
  match text.dropWhile isBlank with
  | [] => .error .empty
  | c :: start =>
    match parser (c :: start) with
    | ⟨.ok value, []⟩ => .ok value
    | ⟨.ok _, rest⟩ => .error (.leftover (firstWord rest) (positionBefore text (byteLength rest)))
    | ⟨.error error, _⟩ =>
      .error (.unmet error.expectations (positionBefore text error.remainingBytes))

def Expr.parse (source : String) : Except SourceError Expr := readAll Grammar.expression source

def Value.parse (source : String) : Except SourceError Value := readAll Grammar.value source

/-- Reads an environment. A text of white space is the empty one. -/
def Env.parse (source : String) : Except SourceError Env :=
  if source.toList.all isWhiteSpace then .ok .empty else readAll Grammar.environment source

def Judgment.parse (source : String) : Except SourceError Judgment :=
  readAll Grammar.judgment source

def Request.parse (source : String) : Except SourceError Request :=
  readAll Grammar.request source

theorem readAll_eq_ok_iff {α : Type} {parser : Parser α} {source : String} {value : α} :
    readAll parser source = .ok value ↔
      source.toList.dropWhile isBlank ≠ [] ∧
        parser (source.toList.dropWhile isBlank) = .success value [] := by
  unfold readAll
  dsimp only
  split
  next h => simp [h]
  next c start h =>
    rw [h]
    split
    next found hp => simp [hp, Parsed.success]
    next hrest hp => simp_all [Parsed.success]
    next hp => simp [hp, Parsed.success]

end ErrorML
