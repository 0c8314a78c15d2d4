import ChipEight.CommandLine.Switch

/-! Why a command line is refused. -/

namespace ChipEight

inductive Refusal where
  | ambiguous (argument : String) (candidates : List Switch)
  | valueMissing (s : Switch)
  | valueUnused (s : Switch) (value : String)
  | notInteger (s : Switch) (value : String)
  | notImplementation (s : Switch) (value : String)
  | romMissing
  | unrecognised (words : List String)
  deriving DecidableEq, Repr

namespace Refusal

def about (s : Switch) (complaint : String) : String :=
  "argument " ++ s.label ++ ": " ++ complaint

def message : Refusal → String
  | ambiguous argument candidates =>
    "ambiguous option: " ++ argument ++ " could match "
      ++ ", ".intercalate (candidates.map (·.long))
  | valueMissing s => about s "expected one argument"
  | valueUnused s value => about s ("ignored explicit argument " ++ Text.quoted value)
  | notInteger s value => about s ("invalid int value: " ++ Text.quoted value)
  | notImplementation s value =>
    about s ("invalid choice: " ++ Text.quoted value ++ " (choose from "
      ++ ", ".intercalate (Implementation.all.map fun i => Text.quoted i.name) ++ ")")
  | romMissing => "the following arguments are required: rom"
  | unrecognised words => "unrecognized arguments: " ++ " ".intercalate words

end Refusal

end ChipEight
