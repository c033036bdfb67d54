import ErrorML.Grammar.Value
import ErrorML.Judgment

namespace ErrorML.Grammar

open ErrorML.Parser

def judgment : Parser Judgment :=
  firstOf
    [((Sequence.of fun env _ expr _ value => Judgment.mk (some env) expr value)
        |>.next environment
        |>.next (symbol "|-")
        |>.next expression
        |>.next (keyword "evalto")
        |>.next value).parser,
      ((Sequence.of fun expr _ value => Judgment.mk none expr value)
        |>.next expression
        |>.next (keyword "evalto")
        |>.next value).parser]

def request : Parser Request :=
  firstOf
    [((Sequence.of fun env _ expr => Request.mk (some env) expr)
        |>.next environment
        |>.next (symbol "|-")
        |>.next expression).parser,
      expression.map fun expr => Request.mk none expr]

end ErrorML.Grammar
