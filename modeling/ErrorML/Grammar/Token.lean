import ErrorML.Arithmetic
import ErrorML.Parsing.Sequence
import ErrorML.Text.Alphanumeric

namespace ErrorML.Grammar

open ErrorML.Parser

def keywords : List String :=
  ["let", "rec", "in", "fun", "if", "then", "else", "evalto", "true", "false", "error"]

def anonymousBinder : String := "."

def isIdentifierChar (c : Char) : Bool :=
  isAlphanumeric c || c == '_' || c == '\x27'

def isIdentifier (name : String) : Bool :=
  match name.toList with
  | [] => false
  | c :: rest => !c.isDigit && (c :: rest).all isIdentifierChar && !keywords.contains name

inductive TokenError where
  | notWord (expected : String)
  | noIdentifier
  | digitFirst (name : String)
  | isKeyword (name : String)
  | malformedInteger (text : String)
  | integerOutOfRange (text : String)
  | malformedIndex (text : String)
  | indexZero
  | indexOutOfRange (text : String)

def TokenError.message : TokenError → String
  | .notWord expected => "expected '" ++ expected ++ "'"
  | .noIdentifier => "expected identifier"
  | .digitFirst name => "identifier '" ++ name ++ "' starts with a digit"
  | .isKeyword name => "expected identifier, found keyword '" ++ name ++ "'"
  | .malformedInteger text => "malformed integer literal '" ++ text ++ "'"
  | .integerOutOfRange text => "integer literal '" ++ text ++ "' is out of range"
  | .malformedIndex text => "malformed index '" ++ text ++ "'"
  | .indexZero => "indices start at #1"
  | .indexOutOfRange text => "index '" ++ text ++ "' is out of range"

def readToken {α β : Type} (read : α → Except TokenError β) (p : Parser α) : Parser β :=
  p.mapOrRefuse fun a => (read a).mapError TokenError.message

def lexeme {α : Type} (p : Parser α) : Parser α := p.thenSkip blanks

def symbol (text : String) : Parser (List Char) := lexeme (literal text)

def keyword (word : String) : Parser Unit :=
  lexeme <| (takeWhile isIdentifierChar).mapOrRefuse fun found =>
    if String.ofList found = word then .ok () else .error (TokenError.notWord word).message

def readIdentifier (found : List Char) : Except TokenError String :=
  match found with
  | [] => .error .noIdentifier
  | c :: _ =>
    let name := String.ofList found
    if c.isDigit then .error (.digitFirst name)
    else if keywords.contains name then .error (.isKeyword name)
    else .ok name

def identifier : Parser String :=
  lexeme (readToken readIdentifier (takeWhile isIdentifierChar))

def binder : Parser String :=
  firstOf [identifier, (symbol anonymousBinder).map fun _ => anonymousBinder]

def boolean : Parser Bool :=
  firstOf [(keyword "true").map fun _ => true, (keyword "false").map fun _ => false]

def readDigits (digits : List Char) : Nat :=
  digits.foldl (fun n c => 10 * n + (c.toNat - '0'.toNat)) 0

def digits : Parser (List Char) := takeBetween 1 maxWord Char.isDigit

def readInteger : List Char × List Char × List Char → Except TokenError Int64
  | (sign, digits, tail) =>
    if tail ≠ [] then .error (.malformedInteger (String.ofList (sign ++ digits ++ tail)))
    else
      let magnitude : Int := readDigits digits
      match int64? (if sign = [] then magnitude else -magnitude) with
      | some n => .ok n
      | none => .error (.integerOutOfRange (String.ofList (sign ++ digits)))

/-- A number. Only a `signed` one may begin with a minus sign, directly before its digits. -/
def integer (signed : Bool) : Parser Int64 :=
  readToken readInteger <| lexeme <|
    ((Sequence.of fun sign digits tail => (sign, digits, tail))
      |>.next (takeBetween 0 (if signed then 1 else 0) (· == '-'))
      |>.next digits
      |>.next (takeWhile isIdentifierChar)).parser

def readIndex : List Char × List Char → Except TokenError Nat
  | (digits, tail) =>
    if tail ≠ [] then .error (.malformedIndex ("#" ++ String.ofList (digits ++ tail)))
    else
      let n := readDigits digits
      if n = 0 then .error .indexZero
      else if maxWord < n then .error (.indexOutOfRange ("#" ++ String.ofList digits))
      else .ok n

def index : Parser Nat :=
  readToken readIndex <| lexeme <|
    ((Sequence.of fun _ digits tail => (digits, tail))
      |>.next (literal "#")
      |>.next digits
      |>.next (takeWhile isIdentifierChar)).parser

theorem isIdentifierChar_of_ascii {c : Char} (h : c.toNat < 128) :
    isIdentifierChar c = (c.isAlphanum || c == '_' || c == '\x27') := by
  rw [isIdentifierChar, isAlphanumeric_of_ascii h]

theorem readIdentifier_eq_ok_iff {found : List Char} (h : ∀ c ∈ found, isIdentifierChar c)
    {name : String} :
    readIdentifier found = .ok name ↔ name.toList = found ∧ isIdentifier name = true := by
  have same : name.toList = found ↔ String.ofList found = name := by
    rw [← String.toList_inj, String.toList_ofList]
    exact eq_comm
  cases found with
  | nil =>
    constructor
    · intro h
      cases h
    · rintro ⟨empty, identifier⟩
      simp [isIdentifier, empty] at identifier
  | cons c rest =>
    rw [same]
    have all : (c :: rest).all isIdentifierChar = true := List.all_eq_true.2 h
    unfold readIdentifier
    dsimp only
    constructor
    · intro read
      split at read
      next => cases read
      next digit =>
        split at read
        next => cases read
        next keyword =>
          cases read
          refine ⟨rfl, ?_⟩
          simp only [isIdentifier, String.toList_ofList, all, Bool.and_true]
          simpa using And.intro ((Bool.not_eq_true _).mp digit) keyword
    · rintro ⟨rfl, identifier⟩
      simp only [isIdentifier, String.toList_ofList, all, Bool.and_true, Bool.and_eq_true,
        Bool.not_eq_true'] at identifier
      rw [if_neg (by simp [identifier.1]), if_neg (by rw [identifier.2]; decide)]

theorem readDigits_append (front : List Char) (c : Char) :
    readDigits (front ++ [c]) = 10 * readDigits front + (c.toNat - '0'.toNat) := by
  simp [readDigits]

end ErrorML.Grammar
