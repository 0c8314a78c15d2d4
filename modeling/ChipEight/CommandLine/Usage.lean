import ChipEight.CommandLine.Options

/-! What the program says about its command line. -/

namespace ChipEight

namespace Usage

def programName : String := "chip8vm"

def choice : String :=
  "\x7b" ++ ",".intercalate (Implementation.all.map (·.name)) ++ "\x7d"

def lines (ls : List String) : String :=
  String.join (ls.map (· ++ "\n"))

def summary : String := lines [
  "usage: " ++ programName ++ " [-h] [-i " ++ choice ++ "] [--cps CPS]",
  "               [--fps FPS] [--scale SCALE] [-t] [--stats] [--log]",
  "               rom"]

def help : String := summary ++ lines [
  "",
  "Run a CHIP-8 program.",
  "",
  "positional arguments:",
  "  rom                   path to the program image (.ch8)",
  "",
  "options:",
  "  -h, --help            show this help message and exit",
  "  -i " ++ choice ++ ", --implementation " ++ choice,
  "                        which interpreter's quirks to follow (default: COSMAC",
  "                        VIP)",
  "  --cps CPS             instructions per second (default: "
    ++ toString defaultCyclesPerSecond ++ ")",
  "  --fps FPS             frames per second (default: " ++ toString defaultFrameRate ++ ")",
  "  --scale SCALE         window pixels per CHIP-8 pixel",
  "  -t, --terminal        draw in the terminal instead of a window",
  "  --stats               show FPS and cycles/s in the window",
  "  --log                 log every instruction to stderr"]

end Usage

namespace Stop

def status : Stop → Nat
  | help => 0
  | refused _ => 2

def output : Stop → String
  | help => Usage.help
  | refused _ => ""

def errors : Stop → String
  | help => ""
  | refused why => Usage.summary ++ Usage.programName ++ ": error: " ++ why.message ++ "\n"

end Stop

end ChipEight
