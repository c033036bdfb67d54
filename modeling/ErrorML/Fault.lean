import ErrorML.Value.Basic

namespace ErrorML

inductive Fault where
  | boolLeft
  | errorLeft
  | boolRight
  | errorRight
deriving DecidableEq

namespace Fault

def ofLeft? : Value → Option Fault
  | .bool _ => some .boolLeft
  | .error => some .errorLeft
  | _ => none

def ofRight? : Value → Option Fault
  | .bool _ => some .boolRight
  | .error => some .errorRight
  | _ => none

/-- The fault that counts for a pair of operands. -/
def classify? : Value → Value → Option Fault
  | .int _, right => ofRight? right
  | left, _ => ofLeft? left

def suffix : Fault → String
  | .boolLeft => "BoolL"
  | .errorLeft => "ErrorL"
  | .boolRight => "BoolR"
  | .errorRight => "ErrorR"

end Fault

end ErrorML
