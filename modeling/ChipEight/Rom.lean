import ChipEight.Journal

/-! Programs as the content of files, neither empty nor too long for the memory. -/

namespace ChipEight

namespace Rom

def notes (path : String) : List Note := [.romLoading path]

def problem? (content : List UInt8) : Option RomProblem :=
  if content = [] then some .empty
  else if maxRomSize < content.length then some (.tooLong content.length)
  else none

def ofFile (path : String) (reading : Except FileProblem (List UInt8)) :
    Except Failure (List UInt8) :=
  if '\x00' ∈ path.toList then .error .nulInPath
  else
    match reading with
    | .error problem => .error (.romUnavailable path (.unreadable problem))
    | .ok content =>
      match problem? content with
      | some problem => .error (.romUnavailable path problem)
      | none => .ok content

end Rom

end ChipEight
