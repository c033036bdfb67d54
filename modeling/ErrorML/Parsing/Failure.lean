namespace ErrorML

inductive Expectation where
  | literal (text : String)
  | atLeast (min found : Nat)
  | refused (reason : String)
deriving DecidableEq

inductive ParseError where
  | leaf (expectation : Expectation) (remaining : Nat)
  | alternatives (causes : List ParseError)
  | element (index : Nat) (cause : ParseError)

def maxWord : Nat := 0xFFFFFFFFFFFFFFFF

def Expectation.message : Expectation → String
  | .literal text => "expected '" ++ text ++ "'"
  | .atLeast min found =>
    "expected at least " ++ toString min ++ " matching characters, found " ++ toString found
  | .refused reason => reason

namespace ParseError

mutual

def message : ParseError → String
  | .leaf expectation _ => expectation.message
  | .alternatives causes => "no alternative matched: " ++ "; ".intercalate (messages causes)
  | .element index cause =>
    "sequence failed at element " ++ toString index ++ ": " ++ cause.message

def messages : List ParseError → List String
  | [] => []
  | cause :: causes => cause.message :: messages causes

end

def least? : Option Nat → Option Nat → Option Nat
  | some a, some b => some (min a b)
  | some a, none => some a
  | none, b => b

mutual

def furthest? : ParseError → Option Nat
  | .leaf _ remaining => some remaining
  | .alternatives causes => furthestOf? causes
  | .element _ cause => cause.furthest?

def furthestOf? : List ParseError → Option Nat
  | [] => none
  | cause :: causes => least? cause.furthest? (furthestOf? causes)

end

def remainingBytes (error : ParseError) : Nat :=
  error.furthest?.getD maxWord

mutual

def collect (remaining : Nat) (found : List String) : ParseError → List String
  | .leaf expectation left =>
    if left = remaining ∧ expectation.message ∉ found then found ++ [expectation.message]
    else found
  | .alternatives causes => collectAll remaining found causes
  | .element _ cause => collect remaining found cause

def collectAll (remaining : Nat) (found : List String) : List ParseError → List String
  | [] => found
  | cause :: causes => collectAll remaining (collect remaining found cause) causes

end

def expectations (error : ParseError) : List String :=
  collect error.remainingBytes [] error

mutual

def leaves : ParseError → List (Expectation × Nat)
  | .leaf expectation remaining => [(expectation, remaining)]
  | .alternatives causes => leavesOf causes
  | .element _ cause => cause.leaves

def leavesOf : List ParseError → List (Expectation × Nat)
  | [] => []
  | cause :: causes => cause.leaves ++ leavesOf causes

end

@[simp] theorem remainingBytes_leaf (expectation : Expectation) (remaining : Nat) :
    (leaf expectation remaining).remainingBytes = remaining := rfl

@[simp] theorem remainingBytes_element (index : Nat) (cause : ParseError) :
    (element index cause).remainingBytes = cause.remainingBytes := rfl

@[simp] theorem remainingBytes_no_alternatives : (alternatives []).remainingBytes = maxWord := rfl

@[simp] theorem expectations_leaf (expectation : Expectation) (remaining : Nat) :
    (leaf expectation remaining).expectations = [expectation.message] := by
  simp [expectations, collect]

@[simp] theorem expectations_element (index : Nat) (cause : ParseError) :
    (element index cause).expectations = cause.expectations := by
  simp [expectations, collect]

end ParseError

end ErrorML
