/-! A text cut into lines, at the line ends of any script. -/

namespace ChipEight.Text

def endsLine (c : Char) : Bool :=
  ('\n' ≤ c ∧ c ≤ '\r') ∨ ('\x1c' ≤ c ∧ c ≤ '\x1e') ∨ c = '\u0085' ∨ c = '\u2028' ∨ c = '\u2029'

def linesFrom (line : List Char) : List Char → List String
  | [] => if line = [] then [] else [String.ofList line.reverse]
  | '\r' :: '\n' :: cs => String.ofList line.reverse :: linesFrom [] cs
  | c :: cs =>
    if endsLine c then String.ofList line.reverse :: linesFrom [] cs else linesFrom (c :: line) cs

def lines (text : String) : List String :=
  linesFrom [] text.toList

end ChipEight.Text
