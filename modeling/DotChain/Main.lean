import DotChain.CommandLine

/-!
# The program

Prints the answer to a call on its two channels.
-/

/-- Answers a call. -/
def main (arguments : List String) : IO UInt32 := do
  let response := DotChain.CommandLine.respond arguments
  IO.print response.output
  IO.eprint response.errors
  return response.code
