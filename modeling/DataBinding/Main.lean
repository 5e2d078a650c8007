import DataBinding.CommandLine.Run

/-!
# The program

Prints the outcome of the command line and ends with its status.
-/

open DataBinding

def main (args : List String) : IO UInt32 := do
  let outcome := CommandLine.run args
  IO.print (String.ofList outcome.output)
  if !outcome.complaint.isEmpty then IO.eprintln outcome.complaint
  return outcome.status.toUInt32
