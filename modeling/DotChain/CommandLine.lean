import DotChain.Command

/-!
# The command line

From the arguments of a call to what is printed and the exit code. Options may stand anywhere among
the operands; the first operand names the command.
-/

namespace DotChain.CommandLine

/-- What a call prints on its two channels, and its exit code. -/
structure Response where
  output : String
  errors : String
  code : UInt32

/-- How the program is called. -/
def usage : String := "\n".intercalate
  ["Usage: spel [-v|--verbose] [--profile] <command> [args]",
    "",
    "Commands:",
    "  eval <expr> [--root <json>]          Evaluate and print the value and its type",
    "  render <expr>                        Print the structural rendering",
    "  set <expr> <value> --root <json>     Assign and print the updated root",
    "",
    "Options:",
    "  -v, --verbose    Print an evaluation trace to stderr",
    "  --profile        Print evaluation counters to stderr",
    ""]

/-- The answer to a call for help. -/
def help : Response := ⟨usage, "", 0⟩

/-- The answer to a call whose arguments do not fit the command. -/
def misuse (form : String) : Response := ⟨"", "Usage: spel " ++ form ++ "\n", 1⟩

/-- The answer to a call of a command that does not exist. -/
def unknown (command : String) : Response :=
  ⟨usage, "error: unknown command '" ++ command ++ "'\n", 1⟩

/-- The arguments of a call, sorted. -/
structure Arguments where
  /-- Whether the counts of the evaluation are asked for. -/
  profile : Bool
  root : Option String
  operands : List String

/-- A call without arguments. -/
def Arguments.empty : Arguments := ⟨false, none, []⟩

/-- The argument that gives the root document as a part of itself begins like this. -/
def rootMark : List Char := ['-', '-', 'r', 'o', 'o', 't', '=']

/-- Sorts arguments; a call for help and an option without its value are answered at once. A call may
ask for a trace, which changes no answer: none is kept. -/
def Arguments.read (sorted : Arguments) : List String → Except Response Arguments
  | [] => .ok sorted
  | argument :: rest =>
    if argument = "-v" ∨ argument = "--verbose" then sorted.read rest
    else if argument = "--profile" then { sorted with profile := true }.read rest
    else if argument = "-h" ∨ argument = "--help" then .error help
    else if argument = "--root" then
      match rest with
      | [] => .error (misuse "... --root <json>")
      | text :: rest => { sorted with root := some text }.read rest
    else
      match rootMark.isPrefixOf? argument.toList with
      | some text => { sorted with root := some (String.ofList text) }.read rest
      | none => { sorted with operands := sorted.operands ++ [argument] }.read rest

/-- The counts of an evaluation, one a line. -/
def profile (counters : Counters) : String :=
  s!"nodes evaluated:   {counters.nodes}\n" ++
  s!"context pushes:    {counters.pushes}\n" ++
  s!"context pops:      {counters.pops}\n" ++
  s!"max context depth: {counters.maxDepth}\n"

/-- The answer to a call of a command that has run. -/
def finish (profiled : Bool) : Except Report Command.Output → Response
  | .error report => ⟨"", report.render ++ "\n", 1⟩
  | .ok output =>
    let errors := match output.counters with
      | some counters => if profiled then profile counters else ""
      | none => ""
    ⟨output.text ++ "\n", errors, 0⟩

/-- Runs the command that the operands name. -/
def dispatch (arguments : Arguments) : Response :=
  match arguments.operands with
  | [] => help
  | command :: operands =>
    if command = "eval" then
      match operands with
      | [source] => finish arguments.profile (Command.eval source arguments.root)
      | _ => misuse "eval <expr> [--root <json>]"
    else if command = "render" then
      match operands with
      | [source] => finish arguments.profile (Command.render source)
      | _ => misuse "render <expr>"
    else if command = "set" then
      match operands, arguments.root with
      | [target, operand], some root => finish arguments.profile (Command.set target operand root)
      | _, _ => misuse "set <expr> <value> --root <json>"
    else unknown command

/-- The answer to a call. -/
def respond (arguments : List String) : Response :=
  match Arguments.empty.read arguments with
  | .error response => response
  | .ok sorted => dispatch sorted

end DotChain.CommandLine
