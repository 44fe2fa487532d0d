import JuceWorkbench.CommandLine.Run

/-! The program as a rehearsal: a command line is carried out at a bench whose folders are
empty, and what it prints is printed. Nothing outside the bench is touched, and every command
it would start ends in a quiet success. -/

namespace JuceWorkbench.CommandLine

/-- All lines of a stream, up to its end. -/
partial def readAll (input : IO.FS.Stream) : IO String := do
  let line ← input.getLine
  if line.isEmpty then return ""
  else return line ++ (← readAll input)

def rehearse (words : List String) : IO UInt32 := do
  let input ← if asks words then readAll (← IO.getStdin) else pure ""
  let bench := { Bench.fresh {} with input := input.toList }
  let (result, bench) := (status words).run.run bench
  IO.print bench.output
  IO.eprint bench.errors
  return exitCode result

end JuceWorkbench.CommandLine

def main (words : List String) : IO UInt32 := JuceWorkbench.CommandLine.rehearse words
